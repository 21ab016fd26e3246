import ContentApproval.Properties.Correlation

/-!
# The log as a stream of lines

The handler of the root logger writes the lines of all requests one after the other. Whatever the
clients send in their headers and paths, and whatever the routes log, the stream is read back line
by line as the objects that the formatter made, in their order, also while it is still being
written; and the values of a context under keys that look sensitive leave no trace in it
(`log_reads_back`).
-/

namespace ContentApproval

namespace JSONFormatter

open Redaction Json.Reader

section Payload

variable {Value : Type} {str : String → Value} {requestId : Option String} {record : Record Value}

/-- What holds of strings and of the values of the context holds of all values of the object. -/
theorem forall_payload {P : Value → Prop} (hstr : ∀ s, P (str s))
    (hcontext : ∀ context ∈ record.context, ∀ e ∈ context.entries, P e.2) :
    ∀ e ∈ (payload str requestId record).entries, P e.2 := by
  have hown : ∀ e ∈ (ownFields str requestId record).entries, P e.2 := by
    have hfour : ∀ e ∈ ((((Dict.empty.set "timestamp" (str record.time)).set "level"
        (str record.levelname)).set "logger" (str record.name)).set "message"
          (str record.message)).entries, P e.2 :=
      Dict.forall_set (Dict.forall_set (Dict.forall_set (Dict.forall_set (by simp [Dict.empty]) _
        (hstr _)) _ (hstr _)) _ (hstr _)) _ (hstr _)
    unfold ownFields
    cases requestId with
    | none => exact hfour
    | some id => exact Dict.forall_set hfour _ (hstr id)
  have hredacted : ∀ context ∈ record.context,
      ∀ e ∈ (redactMapping str context).entries, P e.2 := by
    intro context hmem e he
    obtain ⟨e', he', rfl⟩ := List.mem_map.mp he
    dsimp only
    split_ifs
    · exact hstr _
    · exact hcontext context hmem e' he'
  unfold payload
  cases hrecord : record.context with
  | none =>
    cases record.excInfo with
    | none => exact hown
    | some text => exact Dict.forall_set hown _ (hstr text)
  | some context =>
    have hupdated := Dict.forall_update hown (hredacted context hrecord)
    cases record.excInfo with
    | none => exact hupdated
    | some text => exact Dict.forall_set hupdated _ (hstr text)

end Payload

/-! ## Reading a line -/

/-- A reader that may open `room` containers can read the values of the context. -/
def Record.Readable (room : Nat) (record : Record Json) : Prop :=
  ∀ context ∈ record.context, ∀ e ∈ context.entries, Json.Reader.Readable room e.2

theorem readableFields {room : Nat} {fields : List (String × Json)}
    (h : ∀ e ∈ fields, Json.Reader.Readable room e.2) : ReadableFields room fields := by
  induction fields with
  | nil => trivial
  | cons e fields ih =>
    obtain ⟨he, hfields⟩ := List.forall_mem_cons.mp h
    exact ⟨he, ih hfields⟩

/-- The object of a record can be read in one container more than its context. -/
theorem Record.Readable.payload {room : Nat} {record : Record Json} (h : record.Readable room)
    (requestId : Option String) : Json.Reader.Readable (room + 1)
      (.obj (JSONFormatter.payload .str requestId record).entries) :=
  ⟨(JSONFormatter.payload .str requestId record).nodup, room, rfl,
    readableFields (forall_payload (fun _ => trivial) h)⟩

/-- The values that the service logs are strings. -/
theorem readable_ofLog (room : Nat) (time : String) (record : LogRecord) :
    (Record.ofLog Json.str time record).Readable room := by
  intro context hcontext
  obtain rfl := Option.some.inj hcontext
  refine Dict.forall_foldl_set (fun e he => ?_) (by simp [Dict.empty])
  obtain ⟨e', -, rfl⟩ := List.mem_map.mp he
  trivial

/-! ## Secrets -/

section Secrets

variable {Value : Type} {str : String → Value}

/-- The two entries differ in nothing but a value under a key that looks sensitive. -/
def SameButSecret (e e' : String × Value) : Prop :=
  e.1 = e'.1 ∧ (looksSensitive (PyStr.ofString e.1) = false → e.2 = e'.2)

/-- The two records differ in nothing but such values of their contexts. -/
structure Record.SameButSecrets (r r' : Record Value) : Prop where
  time : r.time = r'.time
  levelname : r.levelname = r'.levelname
  name : r.name = r'.name
  message : r.message = r'.message
  excInfo : r.excInfo = r'.excInfo
  context : Option.Rel (fun c c' => List.Forall₂ SameButSecret c.entries c'.entries)
    r.context r'.context

theorem redactEntries_eq {es es' : List (String × Value)} (h : List.Forall₂ SameButSecret es es') :
    es.map (fun e => (e.1, if looksSensitive (PyStr.ofString e.1) then str redacted else e.2)) =
      es'.map fun e =>
        (e.1, if looksSensitive (PyStr.ofString e.1) then str redacted else e.2) := by
  induction h with
  | nil => rfl
  | @cons e e' es es' he _ ih =>
    obtain ⟨hkey, hvalue⟩ := he
    rw [List.map_cons, List.map_cons, ih, ← hkey]
    cases hsecret : looksSensitive (PyStr.ofString e.1) with
    | true => rfl
    | false => rw [hvalue hsecret]

theorem redactMapping_eq {c c' : Dict Value}
    (h : List.Forall₂ SameButSecret c.entries c'.entries) :
    redactMapping str c = redactMapping str c' := by
  unfold redactMapping Dict.mapValues
  simp only [redactEntries_eq h]

/-- Such records have one object. -/
theorem Record.SameButSecrets.payload {r r' : Record Value} (h : r.SameButSecrets r')
    (requestId : Option String) :
    JSONFormatter.payload str requestId r = JSONFormatter.payload str requestId r' := by
  have hown : ownFields str requestId r = ownFields str requestId r' := by
    unfold ownFields
    rw [h.time, h.levelname, h.name, h.message]
  have hcontext := h.context
  unfold JSONFormatter.payload
  rw [hown, h.excInfo]
  cases hr : r.context with
  | none =>
    rw [hr] at hcontext
    cases hr' : r'.context with
    | none => rfl
    | some c' => rw [hr'] at hcontext; cases hcontext
  | some c =>
    rw [hr] at hcontext
    cases hr' : r'.context with
    | none => rw [hr'] at hcontext; cases hcontext
    | some c' =>
      rw [hr'] at hcontext
      cases hcontext with
      | some hentries => simp only [redactMapping_eq hentries]

end Secrets

end JSONFormatter

namespace Middleware

open JSONFormatter Json.Reader

/-! ## Requests one after the other -/

/-- A request, what the routes do with it, and what is logged if an exception escapes from them. -/
structure Exchange where
  minted : String
  request : HttpRequest
  time : String
  traceback : String
  inner : Inner

/-- The server after the request. -/
def Exchange.serve (x : Exchange) (server : Server) : Server :=
  (Middleware.serve x.minted x.request (unhandledRecord x.request x.time x.traceback) x.inner
    server).1

def serveAll (xs : List Exchange) (server : Server) : Server :=
  xs.foldl (fun server x => x.serve server) server

/-- The objects that a request adds to the log: those of the records of its routes, under its
correlation id, and that of the exception that escapes from them, if one does. -/
def Exchange.lines (requestIdVar : Option String) (x : Exchange) : List (Dict Json) :=
  x.inner.records.map (payload .str (some (correlationId x.minted x.request.requestId))) ++
    match exceptionMiddleware x.inner.outcome with
    | .returned _ => []
    | _ => [payload .str requestIdVar (unhandledRecord x.request x.time x.traceback)]

theorem serve_eq (x : Exchange) (server : Server) :
    x.serve server = { server with lines := server.lines ++ x.lines server.requestIdVar } := by
  unfold Exchange.serve Exchange.lines
  cases hout : exceptionMiddleware x.inner.outcome with
  | returned response => rw [serve_returned hout, Server.logged, List.append_nil]
  | raised e =>
    rw [serve_raised hout, Server.log, Server.logged, List.append_assoc]
  | failedAfter response =>
    rw [serve_failedAfter hout, Server.log, Server.logged, List.append_assoc]

theorem serveAll_eq (xs : List Exchange) (server : Server) : serveAll xs server =
    { server with lines := server.lines ++ xs.flatMap (Exchange.lines server.requestIdVar) } := by
  induction xs generalizing server with
  | nil => simp [serveAll]
  | cons x xs ih =>
    have hstep : serveAll (x :: xs) server = serveAll xs (x.serve server) := rfl
    rw [hstep, ih, serve_eq, List.flatMap_cons, List.append_assoc]

/-- What the handler has written of these requests. -/
def log (xs : List Exchange) : List UInt8 := written (serveAll xs ⟨none, []⟩).lines

theorem log_eq (xs : List Exchange) : log xs = written (xs.flatMap (Exchange.lines none)) := by
  rw [log, serveAll_eq, List.nil_append]

/-- The two requests differ in nothing but secrets that their routes log. -/
structure Exchange.SameButSecrets (x y : Exchange) : Prop where
  minted : x.minted = y.minted
  request : x.request = y.request
  time : x.time = y.time
  traceback : x.traceback = y.traceback
  outcome : x.inner.outcome = y.inner.outcome
  records : List.Forall₂ Record.SameButSecrets x.inner.records y.inner.records

theorem Exchange.SameButSecrets.lines {x y : Exchange} (h : x.SameButSecrets y)
    (requestIdVar : Option String) : x.lines requestIdVar = y.lines requestIdVar := by
  have hrecords : ∀ id, x.inner.records.map (payload Json.str id) =
      y.inner.records.map (payload Json.str id) := fun id => by
    rw [← List.forall₂_eq_eq_eq, List.forall₂_map_left_iff, List.forall₂_map_right_iff]
    exact h.records.imp fun _ _ hr => hr.payload id
  unfold Exchange.lines
  rw [h.minted, h.request, h.time, h.traceback, h.outcome, hrecords]

theorem lines_sameButSecrets {xs ys : List Exchange}
    (h : List.Forall₂ Exchange.SameButSecrets xs ys) (requestIdVar : Option String) :
    xs.flatMap (Exchange.lines requestIdVar) = ys.flatMap (Exchange.lines requestIdVar) := by
  induction h with
  | nil => rfl
  | cons hxy _ ih => rw [List.flatMap_cons, List.flatMap_cons, hxy.lines, ih]

/-- **The log is read back.** For any requests, one after the other, if a reader can read the values
that the routes log: line by line it reads the objects of the formatter, in their order. So does a
reader of what has been written so far, as far as that goes. Requests that differ in nothing but
values under keys that look sensitive leave one log. -/
theorem log_reads_back (float : PyStr → PyFloat) {room : Nat} {xs : List Exchange}
    (h : ∀ x ∈ xs, ∀ record ∈ x.inner.records, record.Readable room) :
    let objects := (xs.flatMap (Exchange.lines none)).map fun line =>
      (Except.ok (PyValue.ofJson (.obj line.entries)) : Except LoadsError PyValue)
    (splitLines (log xs)).map (loads float (room + 1)) = objects ∧
      (∀ bs, bs <+: log xs → (splitLines bs).map (loads float (room + 1)) <+: objects) ∧
      ∀ ys, List.Forall₂ Exchange.SameButSecrets xs ys → log ys = log xs := by
  intro objects
  have hreadable : ∀ document ∈ (xs.flatMap (Exchange.lines none)).map fun line =>
      Json.obj line.entries, Readable (room + 1) document := by
    intro document hdocument
    obtain ⟨line, hline, rfl⟩ := List.mem_map.mp hdocument
    obtain ⟨x, hx, hline⟩ := List.mem_flatMap.mp hline
    rcases List.mem_append.mp hline with hline | hline
    · obtain ⟨record, hrecord, rfl⟩ := List.mem_map.mp hline
      exact (h x hx record hrecord).payload _
    · split at hline
      · cases hline
      · obtain rfl := List.mem_singleton.mp hline
        exact Record.Readable.payload (readable_ofLog room _ _) _
  have hobjects : objects = ((xs.flatMap (Exchange.lines none)).map fun line =>
      Json.obj line.entries).map fun document => .ok (.ofJson document) := by
    rw [List.map_map]
    rfl
  refine ⟨?_, fun bs hbs => ?_, fun ys hys => ?_⟩
  · rw [hobjects, log_eq]
    exact loads_stream float hreadable
  · rw [log_eq] at hbs
    rw [hobjects]
    exact loads_written float hreadable hbs
  · rw [log_eq, log_eq, lines_sameButSecrets hys]

/-- A client puts line breaks into its path and its header. -/
def Sample.forged : Exchange where
  minted := "minted-1"
  request := ⟨"POST", "/v1\n[]", some "corr-1\n[]"⟩
  time := "2024-05-01T00:00:00+0000"
  traceback := "Traceback\n  IntegrityError"
  inner := ⟨[.ofLog .str "2024-05-01T00:00:00+0000" ContentApproval.Sample.launchLogged],
    .raised .integrityError⟩

theorem log_reads_back_sample : (splitLines (log [Sample.forged])).length = 2 := by
  have hread : ∀ x ∈ [Sample.forged], ∀ record ∈ x.inner.records, record.Readable 0 := by
    intro x hx record hrecord
    obtain rfl := List.mem_singleton.mp hx
    obtain rfl := List.mem_singleton.mp hrecord
    exact readable_ofLog 0 _ _
  have hlength := congrArg List.length (log_reads_back (fun _ => .nan) hread).1
  rwa [List.length_map, List.length_map] at hlength

end Middleware

end ContentApproval
