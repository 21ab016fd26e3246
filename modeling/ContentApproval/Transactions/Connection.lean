import ContentApproval.Transactions.Sequential

/-!
# Requests on their connections

A `World` rolls a request back as soon as it raises. This is the code that does so: a request
sends its statements over a connection, where each of them may fail, it may also fail by itself
before it is answered, and whatever it raises is caught by the code that has begun its
transaction, which sends `ROLLBACK` and raises it again (`Prog.transact`). `COMMIT` and `ROLLBACK`
are commands like any other here, and a program may send them whenever it likes.

* `Pool.Run.simulated`: every run of such requests is a run of a `World`.
* `Pool.Run.realized`: every run of a `World` in which nobody interferes from outside is a run
  of such requests.
* `Pool.Run.erase`: a request that has not been answered can be taken out of the run, and no
  other connection and nothing in the store is different.
-/

namespace Transactions

/-- What a request sends over its connection, and to its client. -/
inductive Command (Stmt α : Type)
  | send (s : Stmt)
  | respond (a : α)
  | commit
  | rollback

variable {Stmt : Type} {Reply : Stmt → Type} {φ ε α β Store Write ι : Type}

/-- What comes back. A statement and a `COMMIT` may fail with a fault, and so may whatever else the
request does after its last statement and before its answer. -/
def Command.Result (Reply : Stmt → Type) (φ : Type) : Command Stmt α → Type
  | .send s => Except φ (Reply s)
  | .respond _ => Except φ Unit
  | .commit => Except φ Unit
  | .rollback => Unit

/-- The program of a connection. -/
abbrev Script (Reply : Stmt → Type) (φ ε α : Type) : Type :=
  Prog (Command.Result (α := α) Reply φ) ε Unit

/-! ## Programs -/

/-- The program on a connection. A statement that fails raises there. -/
def Prog.onConnection (raised : φ → ε) :
    Prog Reply ε β → Prog (Command.Result (α := α) Reply φ) ε β
  | .ret b => .ret b
  | .throw e => .throw e
  | .exec s k => .exec (.send s) (fun (r : Except φ (Reply s)) => match r with
    | .ok r => (k r).onConnection raised
    | .error f => .throw (raised f))

namespace Script

/-- `COMMIT`, which raises if it fails. -/
def commit (raised : φ → ε) : Script Reply φ ε α :=
  .exec .commit (fun (r : Except φ Unit) => match r with
    | .ok () => .ret ()
    | .error f => .throw (raised f))

/-- Roll back and raise again. -/
def unwind (e : ε) : Script Reply φ ε α := .exec .rollback (fun _ => .throw e)

/-- The rest of a transaction after the answer. -/
def close (raised : φ → ε) (exit : Prog Reply ε Unit) : Script Reply φ ε α :=
  ((exit.onConnection raised).bind (fun _ => commit raised)).catchError unwind

end Script

/-- A request inside a transaction of its own: it is answered, what is left is sent, and the
transaction commits; and whatever is raised on the way rolls it back. -/
def Prog.transact (raised : φ → ε) (p : Request Reply ε α) : Script Reply φ ε α :=
  ((p.onConnection raised).bind (fun q => .exec (.respond q.1) (fun (r : Except φ Unit) =>
    match r with
    | .ok () => (q.2.onConnection raised).bind (fun _ => Script.commit raised)
    | .error f => .throw (raised f)))).catchError Script.unwind

section Equations

variable (raised : φ → ε)

theorem Prog.transact_ret (a : α) (exit : Prog Reply ε Unit) :
    transact raised (.ret (a, exit)) = .exec (.respond a) (fun (r : Except φ Unit) => match r with
      | .ok () => Script.close raised exit
      | .error f => Script.unwind (raised f)) := by
  refine congrArg (exec (Command.respond a)) (funext fun r => ?_)
  cases r <;> rfl

theorem Prog.transact_exec (s : Stmt) (k : Reply s → Request Reply ε α) :
    transact raised (.exec s k) = .exec (.send s) (fun (r : Except φ (Reply s)) => match r with
      | .ok r => transact raised (k r)
      | .error f => Script.unwind (raised f)) := by
  simp only [transact, onConnection, bind, catchError]
  refine congrArg (exec (Command.send s)) (funext fun r => ?_)
  cases r <;> rfl

theorem Script.close_ret : (close raised (.ret ()) : Script Reply φ ε α) =
    .exec .commit (fun (r : Except φ Unit) => match r with
      | .ok () => .ret ()
      | .error f => unwind (raised f)) := by
  refine congrArg (Prog.exec Command.commit) (funext fun r => ?_)
  cases r <;> rfl

theorem Script.close_exec (s : Stmt) (k : Reply s → Prog Reply ε Unit) :
    (close raised (.exec s k) : Script Reply φ ε α) =
      .exec (.send s) (fun (r : Except φ (Reply s)) => match r with
        | .ok r => close raised (k r)
        | .error f => unwind (raised f)) := by
  simp only [close, Prog.onConnection, Prog.bind, Prog.catchError]
  refine congrArg (Prog.exec (Command.send s)) (funext fun r => ?_)
  cases r <;> rfl

end Equations

/-! ## Connections -/

/-- Where a request stands: what it still has to do, what its connection holds uncommitted, and
the answer that its client has. -/
structure Connection (Reply : Stmt → Type) (Write φ ε α : Type) where
  script : Script Reply φ ε α
  writes : List Write
  answer? : Option α

/-- The request was not answered, and has ended in an exception. -/
def Connection.Failed (c : Connection Reply Write φ ε α) : Prop :=
  c.answer? = none ∧ ∃ e, c.script = .throw e

/-- The committed store and the connections of all requests. -/
structure Pool (Reply : Stmt → Type) (Store Write φ ε α ι : Type) where
  store : Store
  connection : ι → Connection Reply Write φ ε α

variable [DecidableEq ι] {db : Database Reply Store Write}

namespace Pool

def set (v : Pool Reply Store Write φ ε α ι) (i : ι) (c : Connection Reply Write φ ε α) :
    Pool Reply Store Write φ ε α ι :=
  ⟨v.store, Function.update v.connection i c⟩

omit [DecidableEq ι] in
/-- No request has sent a command yet. -/
def start (σ : Store) (p : ι → Script Reply φ ε α) : Pool Reply Store Write φ ε α ι :=
  ⟨σ, fun i => ⟨p i, [], none⟩⟩

variable (v : Pool Reply Store Write φ ε α ι) {i j : ι} (c : Connection Reply Write φ ε α)

@[simp] theorem set_store : (v.set i c).store = v.store := rfl

@[simp] theorem set_connection_self : (v.set i c).connection i = c := Function.update_self ..

theorem set_connection_ne (h : j ≠ i) : (v.set i c).connection j = v.connection j :=
  Function.update_of_ne h ..

theorem set_comm (c' : Connection Reply Write φ ε α) (h : j ≠ i) :
    (v.set j c').set i c = (v.set i c).set j c' := by
  simp only [set, Function.update_comm h]

end Pool

/-- One command of one connection. -/
inductive Pool.Step (db : Database Reply Store Write) :
    Pool Reply Store Write φ ε α ι → ι → Pool Reply Store Write φ ε α ι → Prop
  | send {v i s k δ a} (h : v.connection i = ⟨.exec (.send s) k, δ, a⟩)
      (free : ∀ j, j ≠ i → ∀ x ∈ (v.connection j).writes, ¬ db.Waits s x) :
      Step db v i (v.set i ⟨k (.ok (db.exec s (db.view v.store δ)).1),
        δ ++ (db.exec s (db.view v.store δ)).2, a⟩)
  /-- A statement fails. The server may have rolled the transaction back. -/
  | fault {v i s k δ a} (h : v.connection i = ⟨.exec (.send s) k, δ, a⟩) (f : φ) {δ' : List Write}
      (hδ : δ' = δ ∨ δ' = []) : Step db v i (v.set i ⟨k (.error f), δ', a⟩)
  | respond {v i b k δ a} (h : v.connection i = ⟨.exec (.respond b) k, δ, a⟩) :
      Step db v i (v.set i ⟨k (.ok ()), δ, some b⟩)
  /-- The request fails after its last statement, before it is answered. -/
  | respondFault {v i b k δ a} (h : v.connection i = ⟨.exec (.respond b) k, δ, a⟩) (f : φ) :
      Step db v i (v.set i ⟨k (.error f), δ, a⟩)
  | commit {v i k δ a} (h : v.connection i = ⟨.exec .commit k, δ, a⟩) :
      Step db v i ⟨db.view v.store δ, Function.update v.connection i ⟨k (.ok ()), [], a⟩⟩
  | commitFault {v i k δ a} (h : v.connection i = ⟨.exec .commit k, δ, a⟩) (f : φ) :
      Step db v i (v.set i ⟨k (.error f), [], a⟩)
  | rollback {v i k δ a} (h : v.connection i = ⟨.exec .rollback k, δ, a⟩) :
      Step db v i (v.set i ⟨k (), [], a⟩)

/-- Commands one after the other, in any order of the connections. -/
inductive Pool.Run (db : Database Reply Store Write) (v : Pool Reply Store Write φ ε α ι) :
    List ι → Pool Reply Store Write φ ε α ι → Prop
  | nil : Run db v [] v
  | snoc {is i v' v''} : Run db v is v' → Step db v' i v'' → Run db v (is ++ [i]) v''

/-! ## Connections as sessions -/

section Mirrors

variable {raised : φ → ε}

/-- The connection stands where the session does. If something has failed, the session stands
still until the connection has rolled back, or is rolled back with it by the server. -/
def Connection.Mirrors (raised : φ → ε) (c : Connection Reply Write φ ε α) :
    Session Reply Write ε α → Prop
  | .running p δ => c.writes = δ ∧ c.answer? = none ∧
    (c.script = p.transact raised ∨ ∃ e, c.script = Script.unwind e)
  | .answered a exit δ => c.writes = δ ∧ c.answer? = some a ∧
    (c.script = Script.close raised exit ∨ ∃ e, c.script = Script.unwind e)
  | .committed a _ => c = ⟨.ret (), [], some a⟩
  | .failed e => c = ⟨.throw e, [], none⟩
  | .aborted => c.writes = [] ∧ c.answer? = none ∧
    ∃ e, c.script = Script.unwind e ∨ c.script = .throw e
  | .lost a => c.writes = [] ∧ c.answer? = some a ∧
    ∃ e, c.script = Script.unwind e ∨ c.script = .throw e

namespace Connection.Mirrors

variable {c : Connection Reply Write φ ε α} {t : Session Reply Write ε α} {δ : List Write}
  {a : Option α} {s : Stmt}

theorem writes (h : c.Mirrors raised t) : c.writes = t.writes := by
  cases t with
  | committed a δ => rw [h]; rfl
  | failed e => rw [h]; rfl
  | _ => exact h.1

theorem answer? (h : c.Mirrors raised t) : c.answer? = t.answer? := by
  cases t with
  | committed a δ => rw [h]; rfl
  | failed e => rw [h]; rfl
  | _ => exact h.2.1

/-- Where a connection stands that has no exception on its way. -/
theorem running_or_answered (h : c.Mirrors raised t) (hret : c.script ≠ .ret ())
    (hthrow : ∀ e, c.script ≠ .throw e) (hunwind : ∀ e, c.script ≠ Script.unwind e) :
    (∃ p, t = .running p c.writes ∧ c.answer? = none ∧ c.script = p.transact raised) ∨
      ∃ b exit, t = .answered b exit c.writes ∧ c.answer? = some b ∧
        c.script = Script.close raised exit := by
  cases t with
  | running p δ =>
    obtain ⟨rfl, hanswer, hscript | ⟨e, hscript⟩⟩ := h
    · exact Or.inl ⟨p, rfl, hanswer, hscript⟩
    · exact absurd hscript (hunwind e)
  | answered b exit δ =>
    obtain ⟨rfl, hanswer, hscript | ⟨e, hscript⟩⟩ := h
    · exact Or.inr ⟨b, exit, rfl, hanswer, hscript⟩
    · exact absurd hscript (hunwind e)
  | committed b δ => exact absurd (congrArg Connection.script h) hret
  | failed e => exact absurd (congrArg Connection.script h) (hthrow e)
  | aborted =>
    obtain ⟨-, -, e, hscript | hscript⟩ := h
    · exact absurd hscript (hunwind e)
    · exact absurd hscript (hthrow e)
  | lost b =>
    obtain ⟨-, -, e, hscript | hscript⟩ := h
    · exact absurd hscript (hunwind e)
    · exact absurd hscript (hthrow e)

/-- Who has failed has rolled back before. -/
theorem writes_of_failed (h : c.Mirrors raised t) (hfailed : c.Failed) : c.writes = [] := by
  obtain ⟨hanswer, e, hscript⟩ := hfailed
  cases t with
  | running p δ =>
    obtain ⟨-, -, hp | ⟨e', he'⟩⟩ := h
    · cases p with
      | exec s k =>
        rw [Prog.transact_exec] at hp
        cases hscript.symm.trans hp
      | _ => cases hscript.symm.trans hp
    · cases hscript.symm.trans he'
  | answered b exit δ => cases hanswer.symm.trans h.2.1
  | aborted => exact h.1
  | lost b => exact h.1
  | _ => rw [h]

/-- Who sends a statement is running, or answered and not closed yet. -/
theorem send {k : Except φ (Reply s) → Script Reply φ ε α}
    (h : Mirrors raised ⟨.exec (.send s) k, δ, a⟩ t) :
    (∃ k', t = .running (.exec s k') δ ∧ a = none ∧ k = fun r => match r with
      | .ok r => (k' r).transact raised
      | .error f => Script.unwind (raised f)) ∨
    ∃ b k', t = .answered b (.exec s k') δ ∧ a = some b ∧ k = fun r => match r with
      | .ok r => Script.close raised (k' r)
      | .error f => Script.unwind (raised f) := by
  rcases h.running_or_answered nofun nofun nofun with
    ⟨p, rfl, rfl, hscript⟩ | ⟨b, exit, rfl, rfl, hscript⟩
  · cases p with
    | exec s' k' =>
      rw [Prog.transact_exec] at hscript
      cases hscript
      exact Or.inl ⟨k', rfl, rfl, rfl⟩
    | _ => cases hscript
  · cases exit with
    | exec s' k' =>
      rw [Script.close_exec] at hscript
      cases hscript
      exact Or.inr ⟨b, k', rfl, rfl, rfl⟩
    | _ => cases hscript

theorem respond {b : α} {k : Except φ Unit → Script Reply φ ε α}
    (h : Mirrors raised ⟨.exec (.respond b) k, δ, a⟩ t) : ∃ exit,
      t = .running (.ret (b, exit)) δ ∧ a = none ∧ k = fun r => match r with
        | .ok () => Script.close raised exit
        | .error f => Script.unwind (raised f) := by
  rcases h.running_or_answered nofun nofun nofun with
    ⟨p, rfl, rfl, hscript⟩ | ⟨b, exit, rfl, rfl, hscript⟩
  · cases p with
    | ret q =>
      rw [Prog.transact_ret] at hscript
      cases hscript
      exact ⟨q.2, rfl, rfl, rfl⟩
    | throw e => cases hscript
    | exec s' k' =>
      rw [Prog.transact_exec] at hscript
      cases hscript
  · cases exit with
    | exec s' k' =>
      rw [Script.close_exec] at hscript
      cases hscript
    | _ => cases hscript

/-- `COMMIT` comes last, after the answer. -/
theorem commit {k : Except φ Unit → Script Reply φ ε α}
    (h : Mirrors raised ⟨.exec .commit k, δ, a⟩ t) : ∃ b,
      t = .answered b (.ret ()) δ ∧ a = some b ∧ k = fun r => match r with
        | .ok () => .ret ()
        | .error f => Script.unwind (raised f) := by
  rcases h.running_or_answered nofun nofun nofun with
    ⟨p, rfl, rfl, hscript⟩ | ⟨b, exit, rfl, rfl, hscript⟩
  · cases p with
    | exec s' k' =>
      rw [Prog.transact_exec] at hscript
      cases hscript
    | _ => cases hscript
  · cases exit with
    | ret u =>
      rw [Script.close_ret] at hscript
      cases hscript
      exact ⟨b, rfl, rfl, rfl⟩
    | throw e => cases hscript
    | exec s' k' =>
      rw [Script.close_exec] at hscript
      cases hscript

/-- Who rolls back goes on to raise: what its request has raised, or what its connection has. -/
theorem rollback {k : Unit → Script Reply φ ε α} (h : Mirrors raised ⟨.exec .rollback k, δ, a⟩ t) :
    ∃ e, k = (fun _ => .throw e) ∧ ((t = .running (.throw e) δ ∧ a = none) ∨
      (∃ p, t = .running p δ ∧ a = none) ∨ (∃ b exit, t = .answered b exit δ ∧ a = some b) ∨
        (t = .aborted ∧ a = none) ∨ ∃ b, t = .lost b ∧ a = some b) := by
  cases t with
  | running p δ' =>
    obtain ⟨rfl, rfl, hscript | ⟨e, hscript⟩⟩ := h
    · cases p with
      | ret q => cases hscript
      | throw e =>
        cases hscript
        exact ⟨e, rfl, Or.inl ⟨rfl, rfl⟩⟩
      | exec s k' =>
        rw [Prog.transact_exec] at hscript
        cases hscript
    · cases hscript
      exact ⟨e, rfl, Or.inr (Or.inl ⟨p, rfl, rfl⟩)⟩
  | answered b exit δ' =>
    obtain ⟨rfl, rfl, hscript | ⟨e, hscript⟩⟩ := h
    · cases exit with
      | ret u =>
        rw [Script.close_ret] at hscript
        cases hscript
      | throw e =>
        cases hscript
        exact ⟨e, rfl, Or.inr (Or.inr (Or.inl ⟨b, _, rfl, rfl⟩))⟩
      | exec s k' =>
        rw [Script.close_exec] at hscript
        cases hscript
    · cases hscript
      exact ⟨e, rfl, Or.inr (Or.inr (Or.inl ⟨b, _, rfl, rfl⟩))⟩
  | committed b δ' => cases h
  | failed e => cases h
  | aborted =>
    obtain ⟨rfl, rfl, e, hscript | hscript⟩ := h
    · cases hscript
      exact ⟨e, rfl, Or.inr (Or.inr (Or.inr (Or.inl ⟨rfl, rfl⟩)))⟩
    · cases hscript
  | lost b =>
    obtain ⟨rfl, rfl, e, hscript | hscript⟩ := h
    · cases hscript
      exact ⟨e, rfl, Or.inr (Or.inr (Or.inr (Or.inr ⟨b, rfl, rfl⟩)))⟩
    · cases hscript

end Connection.Mirrors

variable {v v' : Pool Reply Store Write φ ε α ι} {w w' : World Reply Store Write ε α ι} {i : ι}
  {is : List ι}

omit [DecidableEq ι] in
/-- Every connection stands where its session does. -/
structure Pool.Mirrors (raised : φ → ε) (v : Pool Reply Store Write φ ε α ι)
    (w : World Reply Store Write ε α ι) : Prop where
  store : v.store = w.store
  connection : ∀ i, (v.connection i).Mirrors raised (w.session i)

namespace Pool.Mirrors

variable {c : Connection Reply Write φ ε α} {t : Session Reply Write ε α}

omit [DecidableEq ι] in
theorem start (σ : Store) (p : ι → Request Reply ε α) :
    (Pool.start σ (fun i => (p i).transact raised) : Pool Reply Store Write φ ε α ι).Mirrors raised
      (World.start σ p) :=
  ⟨rfl, fun _ => ⟨rfl, rfl, Or.inl rfl⟩⟩

theorem set (h : v.Mirrors raised w) (hc : c.Mirrors raised t) :
    (v.set i c).Mirrors raised (w.set i t) := by
  refine ⟨h.store, fun j => ?_⟩
  by_cases hj : j = i
  · subst hj
    rwa [Pool.set_connection_self, World.set_session_self]
  · rw [Pool.set_connection_ne _ _ hj, World.set_session_ne _ hj]
    exact h.connection j

theorem set_connection (h : v.Mirrors raised w) (hc : c.Mirrors raised (w.session i)) :
    (v.set i c).Mirrors raised w := by
  have hset := h.set (i := i) hc
  rwa [World.set_eq_self rfl] at hset

omit [DecidableEq ι] in
theorem free (h : v.Mirrors raised w) {s : Stmt}
    (hfree : ∀ j, j ≠ i → ∀ x ∈ (v.connection j).writes, ¬ db.Waits s x) :
    ∀ j, j ≠ i → ∀ x ∈ w.held j, ¬ db.Waits s x := by
  intro j hj x hx
  rw [World.held, ← (h.connection j).writes] at hx
  exact hfree j hj x hx

end Pool.Mirrors

/-- A command is a step of the session, or nothing. -/
theorem Pool.Step.simulated (hs : Pool.Step db v i v') (h : v.Mirrors raised w) :
    ∃ w', (w' = w ∨ ∃ b, Transactions.Step db w (i, b) w') ∧ v'.Mirrors raised w' := by
  have hi := h.connection i
  cases hs with
  | @send s k δ a hc hfree =>
    rw [hc] at hi
    rcases hi.send with ⟨k', ht, rfl, rfl⟩ | ⟨b, k', ht, rfl, rfl⟩
    · refine ⟨_, Or.inr ⟨_, .statement ht (h.free hfree)⟩, ?_⟩
      rw [h.store]
      exact h.set ⟨rfl, rfl, Or.inl rfl⟩
    · refine ⟨_, Or.inr ⟨_, .exitStatement ht (h.free hfree)⟩, ?_⟩
      rw [h.store]
      exact h.set ⟨rfl, rfl, Or.inl rfl⟩
  | @fault s k δ a hc f δ' hδ =>
    rw [hc] at hi
    rcases hi.send with ⟨k', ht, rfl, rfl⟩ | ⟨b, k', ht, rfl, rfl⟩
    · rcases hδ with rfl | rfl
      · exact ⟨w, Or.inl rfl, h.set_connection (ht ▸ ⟨rfl, rfl, Or.inr ⟨_, rfl⟩⟩)⟩
      · exact ⟨_, Or.inr ⟨_, .abort ht⟩, h.set ⟨rfl, rfl, _, Or.inl rfl⟩⟩
    · rcases hδ with rfl | rfl
      · exact ⟨w, Or.inl rfl, h.set_connection (ht ▸ ⟨rfl, rfl, Or.inr ⟨_, rfl⟩⟩)⟩
      · exact ⟨_, Or.inr ⟨_, .lose ht⟩, h.set ⟨rfl, rfl, _, Or.inl rfl⟩⟩
  | respond hc =>
    rw [hc] at hi
    obtain ⟨exit, ht, rfl, rfl⟩ := hi.respond
    exact ⟨_, Or.inr ⟨_, .answer ht⟩, h.set ⟨rfl, rfl, Or.inl rfl⟩⟩
  | respondFault hc f =>
    rw [hc] at hi
    obtain ⟨exit, ht, rfl, rfl⟩ := hi.respond
    exact ⟨w, Or.inl rfl, h.set_connection (ht ▸ ⟨rfl, rfl, Or.inr ⟨_, rfl⟩⟩)⟩
  | @commit k δ a hc =>
    rw [hc] at hi
    obtain ⟨b, ht, rfl, rfl⟩ := hi.commit
    refine ⟨_, Or.inr ⟨_, .commit ht⟩, by rw [h.store], ?_⟩
    exact (h.set (t := .committed b δ) rfl).connection
  | commitFault hc f =>
    rw [hc] at hi
    obtain ⟨b, ht, rfl, rfl⟩ := hi.commit
    exact ⟨_, Or.inr ⟨_, .lose ht⟩, h.set ⟨rfl, rfl, _, Or.inl rfl⟩⟩
  | rollback hc =>
    rw [hc] at hi
    obtain ⟨e, rfl, ⟨ht, rfl⟩ | ⟨p, ht, rfl⟩ | ⟨b, exit, ht, rfl⟩ | ⟨ht, rfl⟩ | ⟨b, ht, rfl⟩⟩ :=
      hi.rollback
    · exact ⟨_, Or.inr ⟨_, .raise ht⟩, h.set rfl⟩
    · exact ⟨_, Or.inr ⟨_, .abort ht⟩, h.set ⟨rfl, rfl, e, Or.inr rfl⟩⟩
    · exact ⟨_, Or.inr ⟨_, .lose ht⟩, h.set ⟨rfl, rfl, e, Or.inr rfl⟩⟩
    · exact ⟨w, Or.inl rfl, h.set_connection (ht ▸ ⟨rfl, rfl, e, Or.inr rfl⟩)⟩
    · exact ⟨w, Or.inl rfl, h.set_connection (ht ▸ ⟨rfl, rfl, e, Or.inr rfl⟩)⟩

/-- **Requests in transactions of their own are the requests of a world.** Every session takes
its steps in the order of the commands of its connection. -/
theorem Pool.Run.simulated (hrun : Pool.Run db v is v') (h : v.Mirrors raised w) :
    ∃ ls w', Transactions.Run db w ls w' ∧ v'.Mirrors raised w' ∧
      (ls.map Prod.fst).Sublist is := by
  induction hrun with
  | nil => exact ⟨[], w, .nil, h, List.Sublist.refl _⟩
  | snoc _ hs ih =>
    obtain ⟨ls, w₁, hrun₁, h₁, hsub⟩ := ih
    obtain ⟨w₂, rfl | ⟨b, hs₂⟩, h₂⟩ := hs.simulated h₁
    · exact ⟨ls, w₂, hrun₁, h₂, hsub.trans (List.sublist_append_left _ _)⟩
    · refine ⟨_, w₂, hrun₁.snoc hs₂, h₂, ?_⟩
      rw [List.map_append]
      exact hsub.append (List.Sublist.refl _)

/-! ## Sessions as connections -/

/-- The connection stands where the session does, and no exception is on its way. -/
def Connection.Follows (raised : φ → ε) (c : Connection Reply Write φ ε α) :
    Session Reply Write ε α → Prop
  | .running p δ => c = ⟨p.transact raised, δ, none⟩
  | .answered a exit δ => c = ⟨Script.close raised exit, δ, some a⟩
  | .committed a _ => c = ⟨.ret (), [], some a⟩
  | .failed e => c = ⟨.throw e, [], none⟩
  | .aborted => False
  | .lost a => ∃ e, c = ⟨.throw e, [], some a⟩

omit [DecidableEq ι] in
structure Pool.Follows (raised : φ → ε) (v : Pool Reply Store Write φ ε α ι)
    (w : World Reply Store Write ε α ι) : Prop where
  store : v.store = w.store
  connection : ∀ i, (v.connection i).Follows raised (w.session i)

namespace Pool.Follows

variable {c : Connection Reply Write φ ε α} {t : Session Reply Write ε α}

omit [DecidableEq ι] in
theorem start (σ : Store) (p : ι → Request Reply ε α) :
    (Pool.start σ (fun i => (p i).transact raised) : Pool Reply Store Write φ ε α ι).Follows raised
      (World.start σ p) :=
  ⟨rfl, fun _ => rfl⟩

theorem set (h : v.Follows raised w) (hc : c.Follows raised t) :
    (v.set i c).Follows raised (w.set i t) := by
  refine ⟨h.store, fun j => ?_⟩
  by_cases hj : j = i
  · subst hj
    rwa [Pool.set_connection_self, World.set_session_self]
  · rw [Pool.set_connection_ne _ _ hj, World.set_session_ne _ hj]
    exact h.connection j

omit [DecidableEq ι] in
theorem writes (h : v.Follows raised w) (j : ι) : (v.connection j).writes = w.held j := by
  have hj := h.connection j
  unfold World.held
  cases ht : w.session j with
  | lost a =>
    rw [ht] at hj
    obtain ⟨e, hj⟩ := hj
    rw [hj]
    rfl
  | aborted =>
    rw [ht] at hj
    exact absurd hj id
  | _ =>
    rw [ht] at hj
    rw [show v.connection j = _ from hj]
    rfl

omit [DecidableEq ι] in
theorem free (h : v.Follows raised w) {s : Stmt}
    (hfree : ∀ j, j ≠ i → ∀ x ∈ w.held j, ¬ db.Waits s x) :
    ∀ j, j ≠ i → ∀ x ∈ (v.connection j).writes, ¬ db.Waits s x := by
  intro j hj x hx
  rw [h.writes j] at hx
  exact hfree j hj x hx

end Pool.Follows

/-- A step that nobody outside forces on its session is a command. -/
theorem Step.realized {b : Action} (hs : Step db w (i, b) w') (hb : b ≠ .abort ∧ b ≠ .lose)
    (h : v.Follows raised w) : ∃ v', Pool.Step db v i v' ∧ v'.Follows raised w' := by
  have hi := h.connection i
  cases hs with
  | statement ht hfree =>
    rw [ht] at hi
    have hc : v.connection i = _ := hi
    rw [Prog.transact_exec] at hc
    refine ⟨_, .send hc (h.free hfree), ?_⟩
    rw [h.store]
    exact h.set rfl
  | exitStatement ht hfree =>
    rw [ht] at hi
    have hc : v.connection i = _ := hi
    rw [Script.close_exec] at hc
    refine ⟨_, .send hc (h.free hfree), ?_⟩
    rw [h.store]
    exact h.set rfl
  | answer ht =>
    rw [ht] at hi
    exact ⟨_, .respond hi, h.set rfl⟩
  | raise ht =>
    rw [ht] at hi
    exact ⟨_, .rollback hi, h.set rfl⟩
  | exitRaise ht =>
    rw [ht] at hi
    exact ⟨_, .rollback hi, h.set ⟨_, rfl⟩⟩
  | @commit _ a δ ht =>
    rw [ht] at hi
    have hc : v.connection i = _ := hi
    rw [Script.close_ret] at hc
    refine ⟨_, .commit hc, by rw [h.store], ?_⟩
    exact (h.set (t := .committed a δ) rfl).connection
  | abort ht => exact absurd rfl hb.1
  | lose ht => exact absurd rfl hb.2

/-- **Whatever a world can do by itself, requests in transactions of their own can do.** -/
theorem Run.realized {ls : List (ι × Action)} (hrun : Run db w ls w')
    (hcalm : ∀ l ∈ ls, l.2 ≠ .abort ∧ l.2 ≠ .lose) (h : v.Follows raised w) :
    ∃ v', Pool.Run db v (ls.map Prod.fst) v' ∧ v'.Follows raised w' := by
  induction hrun with
  | nil => exact ⟨v, .nil, h⟩
  | @snoc ls l _ _ _ hs ih =>
    obtain ⟨v₁, hrun₁, h₁⟩ := ih fun l hl => hcalm l (List.mem_append_left _ hl)
    obtain ⟨v₂, hs₂, h₂⟩ :=
      Step.realized (b := l.2) hs (hcalm l (List.mem_append_right _ List.mem_cons_self)) h₁
    rw [List.map_append]
    exact ⟨v₂, hrun₁.snoc hs₂, h₂⟩

end Mirrors

/-! ## Taking a request that has not been answered out of a run -/

section Erase

variable {raised : φ → ε} {v v' v₀ : Pool Reply Store Write φ ε α ι}
  {w : World Reply Store Write ε α ι} {i j : ι} {is : List ι}

/-- Only the connection that sends the command changes. -/
theorem Pool.Step.connection_ne (h : Pool.Step db v i v') (hj : j ≠ i) :
    v'.connection j = v.connection j := by
  cases h <;> simp [Pool.set, hj]

/-- An answer is not taken back. -/
theorem Pool.Step.unanswered (h : Pool.Step db v j v') (hi : (v'.connection i).answer? = none) :
    (v.connection i).answer? = none := by
  by_cases hij : i = j
  · subst hij
    cases h <;> simp_all
  · rwa [← h.connection_ne hij]

theorem Pool.Run.unanswered (h : Pool.Run db v is v') (hi : (v'.connection i).answer? = none) :
    (v.connection i).answer? = none := by
  induction h with
  | nil => exact hi
  | snoc _ hs ih => exact ih (hs.unanswered hi)

/-- **Nothing is committed before the answer.** -/
theorem Pool.Step.store_of_unanswered (h : Pool.Step db v i v') (hw : v.Mirrors raised w)
    (hi : (v'.connection i).answer? = none) : v'.store = v.store := by
  cases h with
  | @commit k δ a hc =>
    have hmirrors := hw.connection i
    rw [hc] at hmirrors
    obtain ⟨b, -, rfl, -⟩ := hmirrors.commit
    simp at hi
  | _ => rfl

/-- A command of another connection is also possible without connection `i`. -/
theorem Pool.Step.without {c : Connection Reply Write φ ε α} (h : Pool.Step db v j v') (hj : j ≠ i)
    (hc : c.writes = []) : Pool.Step db (v.set i c) j (v'.set i c) := by
  have hself : (v.set i c).connection j = v.connection j := Pool.set_connection_ne _ _ hj
  have hset : ∀ d, (v.set j d).set i c = (v.set i c).set j d := fun d => v.set_comm c d hj
  cases h with
  | send h free =>
    rw [hset]
    refine .send (hself.trans h) fun k hk x hx => ?_
    by_cases hki : k = i
    · subst hki
      rw [Pool.set_connection_self, hc] at hx
      cases hx
    · rw [Pool.set_connection_ne _ _ hki] at hx
      exact free k hk x hx
  | fault h f hδ => rw [hset]; exact .fault (hself.trans h) f hδ
  | respond h => rw [hset]; exact .respond (hself.trans h)
  | respondFault h f => rw [hset]; exact .respondFault (hself.trans h) f
  | commit h =>
    have hcommit : Pool.Step db (v.set i c) j _ := .commit (hself.trans h)
    simpa only [Pool.set, Function.update_comm hj] using hcommit
  | commitFault h f => rw [hset]; exact .commitFault (hself.trans h) f
  | rollback h => rw [hset]; exact .rollback (hself.trans h)

/-- A command of a connection that leaves the store changes nothing but that connection. -/
theorem Pool.Step.without_self {c : Connection Reply Write φ ε α} (h : Pool.Step db v i v')
    (hstore : v'.store = v.store) : v'.set i c = v.set i c := by
  simp only [Pool.set, Pool.mk.injEq, hstore, true_and]
  funext j
  by_cases hj : j = i
  · subst hj
    simp
  · simp [hj, h.connection_ne hj]

/-- **A request that has not been answered leaves no trace.** Without its commands the run reaches
the same store, and every other connection stands where it stood. -/
theorem Pool.Run.erase (h : Pool.Run db v₀ is v) (hw : v₀.Mirrors raised w)
    (h₀ : (v₀.connection i).writes = []) (hi : (v.connection i).answer? = none) :
    Pool.Run db v₀ (is.filter (fun j => j ≠ i)) (v.set i (v₀.connection i)) := by
  induction h with
  | nil =>
    have hself : v₀.set i (v₀.connection i) = v₀ := by simp [Pool.set]
    rw [hself]
    exact .nil
  | @snoc is j v₁ v₂ hrun hs ih =>
    have hprev := ih (hs.unanswered hi)
    rw [List.filter_append]
    by_cases hj : j = i
    · subst hj
      obtain ⟨ls, w₁, -, h₁, -⟩ := hrun.simulated hw
      rw [hs.without_self (hs.store_of_unanswered h₁ hi)]
      simpa using hprev
    · simpa [hj] using hprev.snoc (hs.without hj h₀)

end Erase

end Transactions
