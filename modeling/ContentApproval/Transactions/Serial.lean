import ContentApproval.Transactions.Sequential
import Mathlib.Data.List.Forall2

/-!
# One after the other

A request takes effect at its commit (`AtCommit`) if it does, served alone on the store that it
commits on, exactly what it has done. A request that writes nothing may take effect as early as
the first statement that it sends (`AtFirst`). If all requests of a world do one or the other,
those that have committed could have been served one after the other in the order of these
steps (`effectOrder`): with the same answers and writes, and with the same store at the end
(`Run.serializable`). Requests that write nothing may also be left out.

The rules `Wp.and` and `Wp.frame` strengthen what a contract promises.
-/

namespace Transactions

variable {Stmt : Type} {Reply : Stmt → Type} {ε α Store Write ι : Type}
  {db : Database Reply Store Write}

/-! ## Promising more -/

section Wp

variable {D : Discipline db} {J F : List Write → Store → Prop} {p : Prog Reply ε α}
  {Q Q' : Except ε α → List Write → Store → Prop} {δ : List Write} {σ : Store}

/-- Two preconditions at once. -/
theorem Wp.and (h : Wp D J p Q δ σ) (h' : Wp D (fun _ _ => True) p Q' δ σ) :
    Wp D J p (fun r δ σ => Q r δ σ ∧ Q' r δ σ) δ σ := by
  have hfound : ∀ {δ σ σ'}, Found D J δ σ σ' → Found D (fun _ _ => True) δ σ σ' :=
    fun hf => ⟨hf.env, hf.inv, hf.held, trivial⟩
  induction p generalizing δ σ with
  | ret a => exact fun σ' hf => ⟨h σ' hf, h' σ' (hfound hf)⟩
  | throw e => exact fun σ' hf => ⟨h σ' hf, h' σ' (hfound hf)⟩
  | exec s k ih =>
    exact fun σ' hf => ⟨(h σ' hf).1, ih _ (h σ' hf).2 (h' σ' (hfound hf)).2⟩

/-- What neither the surroundings nor the program's own writes can change stays true. -/
theorem Wp.frame (h : Wp D J p Q δ σ) (hF : F δ σ)
    (henv : ∀ {δ σ σ'}, F δ σ → D.EnvStep δ σ σ' → F δ σ')
    (hown : ∀ {δ σ} δ', F δ σ → F (δ ++ δ') σ) :
    Wp D (fun δ σ => J δ σ ∧ F δ σ) p (fun r δ σ => Q r δ σ ∧ F δ σ) δ σ := by
  have hkeep : ∀ {δ σ σ'}, D.Env δ σ σ' → F δ σ → F δ σ' :=
    fun he hF => he.keeps hF fun hs hF => henv hF hs
  have hfound : ∀ {δ σ σ'}, Found D (fun δ σ => J δ σ ∧ F δ σ) δ σ σ' → Found D J δ σ σ' :=
    fun hf => ⟨hf.env, hf.inv, hf.held, hf.during.1⟩
  induction p generalizing δ σ with
  | ret a => exact fun σ' hf => ⟨h σ' (hfound hf), hf.during.2⟩
  | throw e => exact fun σ' hf => ⟨h σ' (hfound hf), hf.during.2⟩
  | exec s k ih =>
    intro σ' hf
    obtain ⟨hJ, hrest⟩ := h σ' (hfound hf)
    have hF' := hown (db.exec s (db.view σ' δ)).2 (hkeep hf.env hF)
    exact ⟨⟨hJ, hF'⟩, ih _ hrest hF'⟩

/-- A precondition that promises nothing. -/
theorem Wp.trivial (hQ : ∀ r δ σ, Q r δ σ) : Wp D (fun _ _ => True) p Q δ σ := by
  induction p generalizing δ σ with
  | ret a => exact fun σ' _ => hQ _ _ _
  | throw e => exact fun σ' _ => hQ _ _ _
  | exec s k ih => exact fun σ' _ => ⟨True.intro, ih _⟩

end Wp

/-- What holds of the result of a program that returns, and nothing of its errors. -/
def Answers (F : α → Store → Prop) : Except ε α → List Write → Store → Prop
  | .ok a, _, σ => F a σ
  | .error _, _, _ => True

namespace Contract

variable {D : Discipline db} (C : Contract D ε α) (F : α → Store → Prop)
  (stable : ∀ {a δ σ σ'}, F a σ → D.EnvStep δ σ σ' → F a σ')

/-- A contract that says more of the answers. -/
def also : Contract D ε α where
  During := C.During
  Answered a δ σ := C.Answered a δ σ ∧ F a σ
  Done := C.Done
  Failed := C.Failed
  during_env := C.during_env
  answered_env h he := ⟨C.answered_env h.1 he, stable h.2 he⟩
  done_env := C.done_env
  failed_env := C.failed_env

variable {C}

/-- What a program promises of its answers besides is part of its contract. -/
theorem Meets.also {p : Request Reply ε α} (h : C.Meets p)
    (hp : ∀ σ, Wp D (fun _ _ => True) p (Answers fun r σ => F r.1 σ) [] σ) :
    (C.also F stable).Meets p := by
  refine ⟨h.during, fun σ hσ => ((h.wp σ hσ).and (hp σ)).mono fun r δ σ' _ _ _ hr => ?_⟩
  cases r with
  | error e => exact hr.1
  | ok r =>
    obtain ⟨a, exit⟩ := r
    obtain ⟨⟨hanswered, hexit⟩, hF⟩ := hr
    have hopen : (C.also F stable).Open a = fun δ σ => C.Open a δ σ ∧ F a σ :=
      funext fun δ => funext fun σ => propext and_assoc.symm
    refine ⟨⟨hanswered, hF⟩, ?_⟩
    rw [hopen]
    exact (hexit.frame (F := fun _ => F a) hF stable fun _ h => h).mono
      fun r δ σ _ _ _ hr => hr.1

end Contract

/-! ## Taking effect -/

/-- Served alone on the store `σ`, the request answers `a` and commits the writes `δ`. -/
def Valid (db : Database Reply Store Write) (p : Request Reply ε α) (σ : Store) (a : α)
    (δ : List Write) : Prop := (p.serve db σ).2.1 = .committed a δ

theorem Valid.store {p : Request Reply ε α} {σ : Store} {a : α} {δ : List Write}
    (h : Valid db p σ a δ) : (p.serve db σ).1 = db.view σ δ :=
  Prog.serve_committed h

theorem Prog.held_run {p : Prog Reply ε α} {σ : Store} {δ : List Write} (h : db.Held δ σ) :
    db.Held (p.run db σ δ).writes σ := by
  induction p generalizing δ with
  | ret a => exact h
  | throw e => exact h
  | exec s k ih => exact ih _ (db.held_exec s h)

/-- What a request commits that is served alone, it has held. -/
theorem Valid.held {p : Request Reply ε α} {σ : Store} {a : α} {δ : List Write}
    (h : Valid db p σ a δ) : db.Held δ σ := by
  unfold Valid Prog.serve at h
  dsimp only at h
  split at h
  · cases h
  · split at h
    · cases h
    · cases h
      exact Prog.held_run (Prog.held_run (db.held_nil σ))

/-- The step of a session at which its request takes effect. -/
inductive Point
  | commit
  | firstStatement
  deriving DecidableEq

def Point.action : Point → Action
  | commit => .commit
  | firstStatement => .statement

section Points

variable {D : Discipline db}

/-- The request does at its commit what it would do alone. -/
def AtCommit (C : Contract D ε α) (p : Request Reply ε α) : Prop :=
  ∀ a δ σ, D.Inv σ → db.Held δ σ → D.Commits σ δ → C.Open a δ σ → C.Done a δ (db.view σ δ) →
    Valid db p σ a δ

/-- Whatever happens after its first statement, the request answers what it would answer alone
on the store that this statement has seen. -/
structure AtFirst (D : Discipline db) (p : Request Reply ε α) : Prop where
  sends : ∀ r, p ≠ .ret r
  reads : ∀ σ, (p.serve db σ).1 = σ
  promises : ∀ {s k σ}, p = .exec s k → D.Inv σ → Wp D (fun _ _ => True)
    (k (db.exec s σ).1) (Answers fun r _ => Valid db p σ r.1 []) (db.exec s σ).2 σ

/-- The request commits nothing. -/
def Contract.Silent (C : Contract D ε α) : Prop := ∀ a δ σ, C.Done a δ σ → δ = []

/-- The request takes effect at this point, or it may be left out. -/
def TakesEffect (C : Contract D ε α) (p : Request Reply ε α) : Option Point → Prop
  | some .commit => AtCommit C p
  | some .firstStatement => AtFirst D p ∧ C.Silent
  | none => C.Silent

end Points

/-! ## The order -/

section Order

variable [DecidableEq ι] (point : ι → Option Point)

/-- The sessions of a run that have come to the step at which they take effect, in the order of
these steps. -/
def effectOrder (ls : List (ι × Action)) : List ι :=
  ls.foldl (fun order l =>
    if (point l.1).map Point.action = some l.2 ∧ l.1 ∉ order then order ++ [l.1] else order) []

theorem effectOrder_snoc (ls : List (ι × Action)) (l : ι × Action) :
    effectOrder point (ls ++ [l]) =
      if (point l.1).map Point.action = some l.2 ∧ l.1 ∉ effectOrder point ls then
        effectOrder point ls ++ [l.1] else effectOrder point ls := by
  rw [effectOrder, List.foldl_append]
  rfl

/-- Who takes effect later comes later. -/
theorem effectOrder_mono (ls ls' : List (ι × Action)) :
    effectOrder point ls <+: effectOrder point (ls ++ ls') := by
  induction ls' using List.reverseRecOn with
  | nil => simp only [List.append_nil, List.prefix_rfl]
  | append_singleton ls' l ih =>
    rw [← List.append_assoc, effectOrder_snoc]
    split_ifs
    · exact ih.trans (List.prefix_append _ _)
    · exact ih

variable {point}

/-- Who has taken effect has taken a step. -/
theorem mem_of_effectOrder {ls : List (ι × Action)} {i : ι} (h : i ∈ effectOrder point ls) :
    ∃ b, (i, b) ∈ ls := by
  induction ls using List.reverseRecOn with
  | nil => cases h
  | append_singleton ls l ih =>
    rw [effectOrder_snoc] at h
    have hold : i ∈ effectOrder point ls → ∃ b, (i, b) ∈ ls ++ [l] := fun h => by
      obtain ⟨b, hb⟩ := ih h
      exact ⟨b, List.mem_append_left _ hb⟩
    split_ifs at h
    · rcases List.mem_append.mp h with h | h
      · exact hold h
      · rw [List.mem_singleton.mp h]
        exact ⟨l.2, List.mem_append_right _ List.mem_cons_self⟩
    · exact hold h

/-- Of two sessions, the one that has taken effect before the other one began comes first. -/
theorem effectOrder_sublist {ls ls' : List (ι × Action)} {i j : ι}
    (hi : i ∈ effectOrder point ls) (hj : ∀ b, (j, b) ∉ ls)
    (hj' : j ∈ effectOrder point (ls ++ ls')) :
    List.Sublist [i, j] (effectOrder point (ls ++ ls')) := by
  obtain ⟨rest, hrest⟩ := effectOrder_mono point ls ls'
  have hlate : j ∈ rest := by
    rw [← hrest] at hj'
    refine (List.mem_append.mp hj').resolve_left fun hj' => ?_
    obtain ⟨b, hb⟩ := mem_of_effectOrder hj'
    exact hj b hb
  rw [← hrest]
  exact (List.singleton_sublist.mpr hi).append (List.singleton_sublist.mpr hlate)

end Order

def Session.isCommitted : Session Reply Write ε α → Bool
  | .committed _ _ => true
  | _ => false

theorem Session.isCommitted_iff {s : Session Reply Write ε α} :
    s.isCommitted = true ↔ ∃ a δ, s = .committed a δ := by
  cases s <;> simp [isCommitted]

/-- The requests of `order`, served one after the other, end as in the world `w`. It is the
order of all that have committed, but for those that are left out. -/
structure Explains (db : Database Reply Store Write) (p : ι → Request Reply ε α) (σ : Store)
    (point : ι → Option Point) (order : List ι) (w : World Reply Store Write ε α ι) : Prop where
  nodup : order.Nodup
  mem : ∀ i, i ∈ order ↔ (point i).isSome ∧ ∃ a δ, w.session i = .committed a δ
  store : (serveAll db (order.map p) σ).1 = w.store
  sessions : (serveAll db (order.map p) σ).2.map Prod.fst = order.map w.session

/-- Requests that leave every store as it is can be left out of a sequence. -/
theorem serveAll_filter {p : ι → Request Reply ε α} (keep : ι → Bool) {order : List ι}
    {R : ι → Session Reply Write ε α → Prop}
    (hskip : ∀ i ∈ order, keep i = false → ∀ σ, ((p i).serve db σ).1 = σ) {σ : Store}
    (hR : List.Forall₂ R order ((serveAll db (order.map p) σ).2.map Prod.fst)) :
    (serveAll db ((order.filter keep).map p) σ).1 = (serveAll db (order.map p) σ).1 ∧
      List.Forall₂ (fun i s => keep i = true ∧ R i s) (order.filter keep)
        ((serveAll db ((order.filter keep).map p) σ).2.map Prod.fst) := by
  induction order generalizing σ with
  | nil => exact ⟨rfl, .nil⟩
  | cons i order ih =>
    obtain ⟨hi, hrest⟩ := List.forall₂_cons.mp hR
    obtain ⟨hstore, hsessions⟩ := ih (fun j hj => hskip j (List.mem_cons_of_mem _ hj)) hrest
    cases hk : keep i with
    | true =>
      rw [List.filter_cons_of_pos hk]
      exact ⟨hstore, .cons ⟨hk, hi⟩ hsessions⟩
    | false =>
      rw [List.filter_cons_of_neg (by simp [hk])]
      have hσ := hskip i List.mem_cons_self hk σ
      rw [hσ] at hstore hsessions
      refine ⟨hstore.trans ?_, hsessions⟩
      change _ = (serveAll db (order.map p) ((p i).serve db σ).1).1
      rw [hσ]

/-! ## Answers that are certain -/

section Promises

variable {D : Discipline db} {F : α → Prop}

/-- If the session is answered, then with an answer that has `F`. -/
def Session.Promises (D : Discipline db) (F : α → Prop) : Session Reply Write ε α → Store → Prop
  | .running p δ, σ => Wp D (fun _ _ => True) p (Answers fun r _ => F r.1) δ σ
  | .answered a _ _, _ => F a
  | .committed a _, _ => F a
  | .lost a, _ => F a
  | _, _ => True

theorem Session.Promises.env {s : Session Reply Write ε α} {σ σ' : Store}
    (h : s.Promises D F σ) (he : D.Env s.writes σ σ') : s.Promises D F σ' := by
  cases s with
  | running p δ => exact Wp.env h he
  | _ => exact h

variable [DecidableEq ι] {C : ι → Contract D ε α} {w w' : World Reply Store Write ε α ι}

/-- No step takes the certainty away, whoever takes it. -/
theorem World.Sound.promises_step (hw : w.Sound C) {l : ι × Action} (h : Step db w l w') {i : ι}
    (hi : (w.session i).Promises D F w.store) : (w'.session i).Promises D F w'.store := by
  obtain ⟨j, b⟩ := l
  by_cases hij : i = j
  · subst hij
    have hf := hw.found i (J := fun _ _ => True) trivial
    cases h with
    | statement hs free =>
      rw [hs] at hi
      simp only [World.held, hs, Session.writes] at hf
      rw [World.set_session_self]
      exact (hi _ hf).2
    | answer hs =>
      rw [hs] at hi
      simp only [World.held, hs, Session.writes] at hf
      rw [World.set_session_self]
      exact hi _ hf
    | commit hs =>
      rw [hs] at hi
      simp only [Function.update_self]
      exact hi
    | exitStatement hs free => rw [hs] at hi; rw [World.set_session_self]; exact hi
    | exitRaise hs => rw [hs] at hi; rw [World.set_session_self]; exact hi
    | lose hs => rw [hs] at hi; rw [World.set_session_self]; exact hi
    | _ => rw [World.set_session_self]; trivial
  · rw [h.session_ne hij]
    exact hi.env (hw.env h hij)

end Promises

/-! ## The rule -/

section Placed

variable {D : Discipline db} {C : ι → Contract D ε α} {p : ι → Request Reply ε α}
  {point : ι → Option Point} {σ : Store} {order : List ι}

/-- Where the session of a request is that has not taken effect. -/
def Before (p : Request Reply ε α) (s : Session Reply Write ε α) : Point → Prop
  | .commit => s.isCommitted = false
  | .firstStatement => s = .running p [] ∨ (∃ e, s = .failed e) ∨ s = .aborted

/-- Where the session of a request is that has taken effect, if it was served in the state `s`. -/
def After (D : Discipline db) (session : Session Reply Write ε α) (σ : Store)
    (s : Session Reply Write ε α) : Option Point → Prop
  | some .commit => session = s ∧ s.isCommitted = true
  | some .firstStatement => session.Promises D (fun a => s = .committed a []) σ
  | none => False

/-- The sessions of `order` have taken effect, in this order, and no others. -/
structure Placed (D : Discipline db) (p : ι → Request Reply ε α) (point : ι → Option Point)
    (σ : Store) (order : List ι) (w : World Reply Store Write ε α ι) : Prop where
  nodup : order.Nodup
  store : (serveAll db (order.map p) σ).1 = w.store
  before : ∀ i b, point i = some b → i ∉ order → Before (p i) (w.session i) b
  after : List.Forall₂ (fun i s => After D (w.session i) w.store s (point i)) order
    ((serveAll db (order.map p) σ).2.map Prod.fst)

theorem Placed.start : Placed D p point σ [] (World.start σ p) where
  nodup := List.nodup_nil
  store := rfl
  before i b _ _ := by
    cases b with
    | commit => rfl
    | firstStatement => exact Or.inl rfl
  after := .nil

variable [DecidableEq ι] {w w' : World Reply Store Write ε α ι} {i : ι} {b : Action}

theorem World.Sound.after_step (hw : w.Sound C) {l : ι × Action} (hs : Step db w l w') {j : ι}
    {s : Session Reply Write ε α} {q : Option Point} (h : After D (w.session j) w.store s q) :
    After D (w'.session j) w'.store s q := by
  rcases q with _ | _ | _
  · exact h
  · obtain ⟨rfl, hcommitted⟩ := h
    obtain ⟨a, δ, hj⟩ := Session.isCommitted_iff.mp hcommitted
    exact ⟨by rw [hs.committed hj, hj], hcommitted⟩
  · exact World.Sound.promises_step (F := fun a => s = .committed a []) hw hs h

/-- A step at which session `i` takes effect. -/
theorem Placed.snoc (h : Placed D p point σ order w) (hw : w.Sound C) (hs : Step db w (i, b) w')
    (hi : i ∉ order) (hstore : ((p i).serve db w.store).1 = w'.store)
    (hafter : After D (w'.session i) w'.store ((p i).serve db w.store).2.1 (point i)) :
    Placed D p point σ (order ++ [i]) w' := by
  refine ⟨?_, ?_, ?_, ?_⟩
  · exact List.nodup_append.mpr ⟨h.nodup, by simp, fun j hj k hk => by
      rw [List.mem_singleton.mp hk]
      rintro rfl
      exact hi hj⟩
  · rw [List.map_append, serveAll_append, h.store]
    exact hstore
  · intro j c hc hj
    rw [List.mem_append, List.mem_singleton, not_or] at hj
    rw [hs.session_ne hj.2]
    exact h.before j c hc hj.1
  · rw [List.map_append, serveAll_append, h.store, List.map_append]
    exact List.rel_append (h.after.imp fun _ _ ha => hw.after_step hs ha) (.cons hafter .nil)

/-- A step at which nobody takes effect. -/
theorem Placed.other (h : Placed D p point σ order w) (hw : w.Sound C) (hs : Step db w (i, b) w')
    (hstore : w'.store = w.store)
    (hbefore : ∀ c, point i = some c → i ∉ order → Before (p i) (w'.session i) c) :
    Placed D p point σ order w' := by
  refine ⟨h.nodup, h.store.trans hstore.symm, fun j c hc hj => ?_,
    h.after.imp fun _ _ ha => hw.after_step hs ha⟩
  by_cases hji : j = i
  · subst hji
    exact hbefore c hc hj
  · rw [hs.session_ne hji]
    exact h.before j c hc hj

omit [DecidableEq ι] in
theorem Placed.after_mem (h : Placed D p point σ order w) {j : ι} (hj : j ∈ order) :
    ∃ s, After D (w.session j) w.store s (point j) := by
  have hafter := h.after
  generalize (serveAll db (order.map p) σ).2.map Prod.fst = sessions at hafter
  clear h
  induction hafter with
  | nil => cases hj
  | @cons k s _ _ hk _ ih =>
    rcases List.mem_cons.mp hj with rfl | hj
    · exact ⟨s, hk⟩
    · exact ih hj

omit [DecidableEq ι] in
/-- What its contract says of a session at its commit. -/
theorem World.Sound.done (hw : w.Sound C) {a : α} {δ : List Write}
    (hi : w.session i = .answered a (.ret ()) δ) : (C i).Done a δ (db.view w.store δ) := by
  have hh := hw.holds i
  have hf := hw.found i (J := (C i).Open a)
  simp only [World.held, hi, Session.writes] at hf
  rw [hi] at hh
  exact (hh.2 _ (hf hh.1)).2

/-- The step at which a request takes effect. -/
theorem Placed.effect (h : Placed D p point σ order w) (hw : w.Sound C)
    (hpoint : TakesEffect (C i) (p i) (point i)) (hs : Step db w (i, b) w')
    (hb : (point i).map Point.action = some b) (hi : i ∉ order) :
    Placed D p point σ (order ++ [i]) w' := by
  cases hpt : point i with
  | none => rw [hpt] at hb; cases hb
  | some c =>
    have hbefore := h.before i c hpt hi
    rw [hpt] at hpoint hb
    obtain rfl : c.action = b := Option.some.inj hb
    cases c with
    | commit =>
      obtain ⟨a, δ, hanswered, hstore, hcommitted⟩ := hs.store_commit
      obtain ⟨hc, hheld, hopen⟩ := hw.commits hanswered
      have hvalid : Valid db (p i) w.store a δ :=
        hpoint a δ _ hw.inv hheld hc hopen (hw.done hanswered)
      refine h.snoc hw hs hi (hvalid.store.trans hstore.symm) ?_
      rw [hpt, hcommitted]
      exact ⟨hvalid.symm, congrArg Session.isCommitted hvalid⟩
    | firstStatement =>
      obtain ⟨hfirst, -⟩ := hpoint
      refine h.snoc hw hs hi ((hfirst.reads _).trans (hs.store_eq Action.noConfusion).symm) ?_
      rw [hpt]
      rcases hbefore with hrunning | ⟨e, hfailed⟩ | haborted
      · cases hs with
        | @statement _ s k δ hsession free =>
          obtain ⟨hp, rfl⟩ := Session.running.inj (hrunning.symm.trans hsession)
          rw [World.set_session_self, World.set_store, Database.view_nil, List.nil_append]
          exact hfirst.promises hp hw.inv
        | exitStatement hsession free => rw [hrunning] at hsession; cases hsession
      · cases hs <;> simp_all
      · cases hs <;> simp_all

/-- Any other step. -/
theorem Placed.quiet (h : Placed D p point σ order w) (hw : w.Sound C)
    (hpoint : TakesEffect (C i) (p i) (point i)) (hs : Step db w (i, b) w')
    (hb : ¬ ((point i).map Point.action = some b ∧ i ∉ order)) :
    Placed D p point σ order w' := by
  refine h.other hw hs ?_ ?_
  · by_cases hc : b = .commit
    · subst hc
      obtain ⟨a, δ, hanswered, hstore, -⟩ := hs.store_commit
      have hsilent : (C i).Silent := by
        rcases hpt : point i with _ | _ | _
        · rwa [hpt] at hpoint
        · have hi : i ∈ order := not_not.mp fun hi => hb ⟨by rw [hpt]; rfl, hi⟩
          obtain ⟨s, hafter⟩ := h.after_mem hi
          rw [hpt, hanswered] at hafter
          obtain ⟨rfl, hcommitted⟩ := hafter
          cases hcommitted
        · rw [hpt] at hpoint
          exact hpoint.2
      rw [hstore, hsilent a δ _ (hw.done hanswered), Database.view_nil]
    · exact hs.store_eq hc
  · intro c hc hi
    have hne : c.action ≠ b := fun he => hb ⟨by rw [hc, Option.map_some, he], hi⟩
    have hbefore := h.before i c hc hi
    rw [hc] at hpoint
    cases c with
    | commit =>
      refine Bool.eq_false_iff.mpr fun hcommitted => ?_
      obtain ⟨a, δ, hsession⟩ := Session.isCommitted_iff.mp hcommitted
      rcases hs.committed_of hsession with hold | ⟨-, rfl⟩
      · rw [Before, hold] at hbefore
        cases hbefore
      · exact hne rfl
    | firstStatement =>
      rcases hbefore with hrunning | ⟨e, hfailed⟩ | haborted
      · cases hs with
        | statement => exact absurd rfl hne
        | exitStatement => exact absurd rfl hne
        | answer hsession =>
          exact absurd (Session.running.inj (hrunning.symm.trans hsession)).1 (hpoint.1.sends _)
        | raise hsession => exact Or.inr (Or.inl ⟨_, World.set_session_self _ _ _⟩)
        | exitRaise hsession => rw [hrunning] at hsession; cases hsession
        | commit hsession => rw [hrunning] at hsession; cases hsession
        | abort hsession => exact Or.inr (Or.inr (World.set_session_self _ _ _))
        | lose hsession => rw [hrunning] at hsession; cases hsession
      · cases hs <;> simp_all
      · cases hs <;> simp_all

theorem Run.placed (hσ : D.Inv σ) (hmeets : ∀ i, (C i).Meets (p i))
    (hpoint : ∀ i, TakesEffect (C i) (p i) (point i)) {ls : List (ι × Action)}
    (h : Run db (World.start σ p) ls w) : Placed D p point σ (effectOrder point ls) w := by
  induction h with
  | nil => exact .start
  | @snoc ls l v v' hrun hs ih =>
    obtain ⟨i, b⟩ := l
    have hv : v.Sound C := (World.Sound.start hσ hmeets).run hrun
    rw [effectOrder_snoc]
    split_ifs with hb
    · exact ih.effect hv (hpoint i) hs hb.1 hb.2
    · exact ih.quiet hv (hpoint i) hs hb

/-- **Serializability.** If every request takes effect at its point, then those that have
committed could have been served one after the other in the order of these points. -/
theorem Run.serializable (hσ : D.Inv σ) (hmeets : ∀ i, (C i).Meets (p i))
    (hpoint : ∀ i, TakesEffect (C i) (p i) (point i)) {ls : List (ι × Action)}
    (h : Run db (World.start σ p) ls w) : Explains db p σ point
      ((effectOrder point ls).filter (fun i => (w.session i).isCommitted)) w := by
  have hplaced := h.placed hσ hmeets hpoint
  have hw : w.Sound C := (World.Sound.start hσ hmeets).run h
  obtain ⟨hstore, hsessions⟩ := serveAll_filter (fun i => (w.session i).isCommitted)
    (fun i hi hfalse σ => by
      obtain ⟨s, hafter⟩ := hplaced.after_mem hi
      have hp := hpoint i
      rcases hpt : point i with _ | _ | _ <;> rw [hpt] at hafter hp
      · exact hafter.elim
      · obtain ⟨rfl, hcommitted⟩ := hafter
        rw [hcommitted] at hfalse
        cases hfalse
      · exact hp.1.reads σ) hplaced.after
  refine ⟨hplaced.nodup.filter _, fun i => ?_, hstore.trans hplaced.store, ?_⟩
  · rw [List.mem_filter, Session.isCommitted_iff]
    refine and_congr_left fun ⟨a, δ, hcommitted⟩ => ⟨fun hi => ?_, fun hsome => ?_⟩
    · obtain ⟨s, hafter⟩ := hplaced.after_mem hi
      cases hpt : point i with
      | none => rw [hpt] at hafter; exact hafter.elim
      | some c => rfl
    · obtain ⟨c, hc⟩ := Option.isSome_iff_exists.mp hsome
      by_contra hi
      have hbefore := hplaced.before i c hc hi
      rw [hcommitted] at hbefore
      cases c with
      | commit => cases hbefore
      | firstStatement => simp [Before] at hbefore
  · refine Eq.symm ?_
    rw [← List.forall₂_eq_eq_eq, List.forall₂_map_left_iff]
    refine hsessions.imp ?_
    rintro i s ⟨hcommitted, hafter⟩
    obtain ⟨a, δ, hsession⟩ := Session.isCommitted_iff.mp hcommitted
    have hp := hpoint i
    rcases hpt : point i with _ | _ | _ <;> rw [hpt] at hafter hp
    · exact hafter.elim
    · exact hafter.1
    · have hdone : (C i).Done a δ w.store := by
        have hh := hw.holds i
        rwa [hsession] at hh
      rw [hsession] at hafter ⊢
      obtain rfl := hp.2 a δ _ hdone
      exact hafter.symm

end Placed

end Transactions
