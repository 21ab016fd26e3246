import ContentApproval.Transactions.World

/-!
# Reasoning about one transaction at a time

A `Discipline` names what a commit may do to the store and an invariant of the store
that every such commit keeps. Under a discipline the other sessions are, to one
transaction, nothing but a sequence of disciplined commits between its statements
(`Discipline.Env`). `Wp` is the weakest precondition of a program in such surroundings,
with one rule for each construct of a program. A `Contract` says what holds of one
request while it runs, when it is answered, when it has committed and when it has
failed; `Meets` says that its program keeps the contract.

`World.Sound.run` is the rule for whole worlds: if every request meets its contract,
then in every interleaving the invariant holds of the store and every session is where
its contract says.
-/

namespace Transactions

variable {Stmt : Type} {Reply : Stmt → Type} {Store Write : Type}
  {db : Database Reply Store Write}

/-- What commits may do, and an invariant of the store that they keep. -/
structure Discipline (db : Database Reply Store Write) where
  Inv : Store → Prop
  /-- A transaction with these writes may commit on this store. -/
  Commits : Store → List Write → Prop
  inv_commit : ∀ {σ δ}, Inv σ → Commits σ δ → db.Held δ σ → Inv (db.view σ δ)

namespace Discipline

variable (D : Discipline db)

/-- Another session commits while the writes `δ` are held. -/
structure EnvStep (δ : List Write) (σ σ' : Store) : Prop where
  inv : D.Inv σ
  held : db.Held δ σ
  commit : ∃ δ', D.Commits σ δ' ∧ db.Held δ' σ ∧ db.Apart δ δ' ∧ σ' = db.view σ δ'

/-- Other sessions commit, any number of times, while the writes `δ` are held. -/
def Env (δ : List Write) : Store → Store → Prop := Relation.ReflTransGen (D.EnvStep δ)

variable {D}

theorem EnvStep.held_after {δ : List Write} {σ σ' : Store} (h : D.EnvStep δ σ σ') :
    db.Held δ σ' := by
  obtain ⟨-, hδ, δ', -, hheld, hap, rfl⟩ := h
  exact db.held_commit hδ hheld hap

theorem Env.refl (δ : List Write) (σ : Store) : D.Env δ σ σ := Relation.ReflTransGen.refl

theorem Env.trans {δ : List Write} {σ₁ σ₂ σ₃ : Store} (h : D.Env δ σ₁ σ₂)
    (h' : D.Env δ σ₂ σ₃) : D.Env δ σ₁ σ₃ := Relation.ReflTransGen.trans h h'

/-- What every disciplined commit keeps, the surroundings keep. -/
theorem Env.keeps {δ : List Write} {P : Store → Prop} {σ σ' : Store} (h : D.Env δ σ σ')
    (hP : P σ) (hstep : ∀ {σ₁ σ₂}, D.EnvStep δ σ₁ σ₂ → P σ₁ → P σ₂) : P σ' := by
  induction h with
  | refl => exact hP
  | tail _ hs ih => exact hstep hs ih

end Discipline

/-- The store that a program may find when it goes on: the surroundings have changed it,
the invariant holds, and the program's own writes still apply. -/
structure Found (D : Discipline db) (J : List Write → Store → Prop) (δ : List Write)
    (σ σ' : Store) : Prop where
  env : D.Env δ σ σ'
  inv : D.Inv σ'
  held : db.Held δ σ'
  during : J δ σ'

theorem Found.of_env {D : Discipline db} {J : List Write → Store → Prop} {δ : List Write}
    {σ₁ σ₂ σ₃ : Store} (h : D.Env δ σ₁ σ₂) (h' : Found D J δ σ₂ σ₃) : Found D J δ σ₁ σ₃ :=
  ⟨h.trans h'.env, h'.inv, h'.held, h'.during⟩

section Wp

variable (D : Discipline db) (J : List Write → Store → Prop) {ε α β : Type}

/-- In the surroundings of `D`, the program keeps `J` after each of its statements and
ends with `Q`. -/
def Wp : Prog Reply ε α → (Except ε α → List Write → Store → Prop) → List Write → Store → Prop
  | .ret a, Q, δ, σ => ∀ σ', Found D J δ σ σ' → Q (.ok a) δ σ'
  | .throw e, Q, δ, σ => ∀ σ', Found D J δ σ σ' → Q (.error e) δ σ'
  | .exec s k, Q, δ, σ => ∀ σ', Found D J δ σ σ' →
      J (δ ++ (db.exec s (db.view σ' δ)).2) σ' ∧
        Wp (k (db.exec s (db.view σ' δ)).1) Q (δ ++ (db.exec s (db.view σ' δ)).2) σ'

variable {D J}

theorem Wp.env {p : Prog Reply ε α} {Q : Except ε α → List Write → Store → Prop}
    {δ : List Write} {σ σ' : Store} (h : Wp D J p Q δ σ) (henv : D.Env δ σ σ') :
    Wp D J p Q δ σ' := by
  cases p <;> exact fun σ'' hf => h σ'' (Found.of_env henv hf)

theorem Wp.mono {p : Prog Reply ε α} {Q Q' : Except ε α → List Write → Store → Prop}
    {δ : List Write} {σ : Store} (h : Wp D J p Q δ σ)
    (hQ : ∀ r δ' σ', D.Inv σ' → db.Held δ' σ' → J δ' σ' → Q r δ' σ' → Q' r δ' σ') :
    Wp D J p Q' δ σ := by
  induction p generalizing δ σ with
  | ret a => exact fun σ' hf => hQ _ _ _ hf.inv hf.held hf.during (h σ' hf)
  | throw e => exact fun σ' hf => hQ _ _ _ hf.inv hf.held hf.during (h σ' hf)
  | exec s k ih => exact fun σ' hf => ⟨(h σ' hf).1, ih _ (h σ' hf).2⟩

/-- It is enough to prove a precondition in the stores the program may find. -/
theorem Wp.of_found {p : Prog Reply ε α} {Q : Except ε α → List Write → Store → Prop}
    {δ : List Write} {σ : Store} (h : ∀ σ', Found D J δ σ σ' → Wp D J p Q δ σ') :
    Wp D J p Q δ σ := by
  cases p <;>
    exact fun σ' hf => h σ' hf σ' ⟨Discipline.Env.refl δ σ', hf.inv, hf.held, hf.during⟩

theorem Wp.bind {p : Prog Reply ε α} {f : α → Prog Reply ε β}
    {Q : Except ε β → List Write → Store → Prop} {δ : List Write} {σ : Store}
    (h : Wp D J p (fun r δ' σ' =>
      match r with
      | .ok a => Wp D J (f a) Q δ' σ'
      | .error e => Q (.error e) δ' σ') δ σ) : Wp D J (p.bind f) Q δ σ := by
  induction p generalizing δ σ with
  | ret a => exact Wp.of_found h
  | throw e => exact h
  | exec s k ih => exact fun σ' hf => ⟨(h σ' hf).1, ih _ (h σ' hf).2⟩

theorem Wp.catchError {p : Prog Reply ε α} {g : ε → Prog Reply ε α}
    {Q : Except ε α → List Write → Store → Prop} {δ : List Write} {σ : Store}
    (h : Wp D J p (fun r δ' σ' =>
      match r with
      | .ok a => Q (.ok a) δ' σ'
      | .error e => Wp D J (g e) Q δ' σ') δ σ) : Wp D J (p.catchError g) Q δ σ := by
  induction p generalizing δ σ with
  | ret a => exact h
  | throw e => exact Wp.of_found h
  | exec s k ih => exact fun σ' hf => ⟨(h σ' hf).1, ih _ (h σ' hf).2⟩

/-- A statement that only reads. -/
theorem Wp.read {s : Stmt} {k : Reply s → Prog Reply ε α}
    {Q : Except ε α → List Write → Store → Prop} {δ : List Write} {σ : Store}
    (hs : ∀ v, (db.exec s v).2 = [])
    (h : ∀ σ', Found D J δ σ σ' → Wp D J (k (db.exec s (db.view σ' δ)).1) Q δ σ') :
    Wp D J (.exec s k) Q δ σ := by
  intro σ' hf
  rw [hs, List.append_nil]
  exact ⟨hf.during, h σ' hf⟩

/-- A program that only reads. -/
theorem Wp.only_reads {p : Prog Reply ε α} {S : Stmt → Prop} {P : α → Prop}
    {Q : Except ε α → List Write → Store → Prop} {δ : List Write} {σ : Store}
    (hS : ∀ s, S s → ∀ v, (db.exec s v).2 = []) (hp : p.Only S (fun _ _ => True) P)
    (hok : ∀ a σ', Found D J δ σ σ' → P a → Q (.ok a) δ σ')
    (herr : ∀ e σ', Found D J δ σ σ' → Q (.error e) δ σ') : Wp D J p Q δ σ := by
  induction p generalizing σ with
  | ret a => exact fun σ' hf => hok a σ' hf hp
  | throw e => exact fun σ' hf => herr e σ' hf
  | exec s k ih =>
    refine Wp.read (hS s hp.1) fun σ' hf => ih _ (hp.2 _ trivial) ?_ ?_
    · exact fun a σ'' hf' => hok a σ'' (Found.of_env hf.env hf')
    · exact fun e σ'' hf' => herr e σ'' (Found.of_env hf.env hf')

end Wp

/-! ## Contracts -/

/-- What one request promises in the surroundings of `D`. -/
structure Contract (D : Discipline db) (ε α : Type) where
  /-- Holds of its uncommitted writes from its first statement to its end. -/
  During : List Write → Store → Prop
  /-- Holds from its answer to its end. -/
  Answered : α → List Write → Store → Prop
  /-- Holds from its commit on. -/
  Done : α → List Write → Store → Prop
  /-- Holds from its failure on. -/
  Failed : ε → Store → Prop
  during_env : ∀ {δ σ σ'}, During δ σ → D.EnvStep δ σ σ' → During δ σ'
  answered_env : ∀ {a δ σ σ'}, Answered a δ σ → D.EnvStep δ σ σ' → Answered a δ σ'
  done_env : ∀ {a δ σ σ'}, Done a δ σ → D.EnvStep [] σ σ' → Done a δ σ'
  failed_env : ∀ {e σ σ'}, Failed e σ → D.EnvStep [] σ σ' → Failed e σ'

namespace Contract

variable {D : Discipline db} {ε α : Type} (C : Contract D ε α)

/-- Where the rest of the transaction ends that runs after the answer `a`. -/
def ExitPost (a : α) : Except ε Unit → List Write → Store → Prop
  | .ok (), δ, σ => D.Commits σ δ ∧ C.Done a δ (db.view σ δ)
  | .error _, _, _ => True

/-- What holds from the answer `a` on. -/
def Open (a : α) (δ : List Write) (σ : Store) : Prop := C.During δ σ ∧ C.Answered a δ σ

/-- Where the program of the request ends. -/
def Post : Except ε (α × Prog Reply ε Unit) → List Write → Store → Prop
  | .ok (a, exit), δ, σ => C.Answered a δ σ ∧ Wp D (C.Open a) exit (C.ExitPost a) δ σ
  | .error e, _, σ => C.Failed e σ

/-- The program keeps the contract, whatever store it starts in. -/
structure Meets (p : Request Reply ε α) : Prop where
  during : ∀ σ, D.Inv σ → C.During [] σ
  wp : ∀ σ, D.Inv σ → Wp D C.During p C.Post [] σ

/-- What the contract says of a session that is here. -/
def Holds : Session Reply Write ε α → Store → Prop
  | .running p δ, σ => C.During δ σ ∧ Wp D C.During p C.Post δ σ
  | .answered a exit δ, σ => C.Open a δ σ ∧ Wp D (C.Open a) exit (C.ExitPost a) δ σ
  | .committed a δ, σ => C.Done a δ σ
  | .failed e, σ => C.Failed e σ
  | .aborted, _ => True
  | .lost _, _ => True

theorem Holds.env {s : Session Reply Write ε α} {σ σ' : Store} (h : C.Holds s σ)
    (henv : D.EnvStep s.writes σ σ') : C.Holds s σ' := by
  cases s with
  | running p δ => exact ⟨C.during_env h.1 henv, h.2.env (.single henv)⟩
  | answered a exit δ =>
    exact ⟨⟨C.during_env h.1.1 henv, C.answered_env h.1.2 henv⟩, h.2.env (.single henv)⟩
  | committed a δ => exact C.done_env h henv
  | failed e => exact C.failed_env h henv
  | aborted => trivial
  | lost a => trivial

end Contract

/-! ## The rule for whole worlds -/

variable {ε α ι : Type} [DecidableEq ι] {D : Discipline db}

/-- The invariant holds and every session is where its contract says. -/
structure World.Sound (C : ι → Contract D ε α) (w : World Reply Store Write ε α ι) : Prop where
  inv : D.Inv w.store
  apart : w.Apart db
  held : ∀ i, db.Held (w.held i) w.store
  holds : ∀ i, (C i).Holds (w.session i) w.store

omit [DecidableEq ι] in
theorem World.Sound.start {C : ι → Contract D ε α} {σ : Store} {p : ι → Request Reply ε α}
    (hσ : D.Inv σ) (hp : ∀ i, (C i).Meets (p i)) : World.Sound C (World.start σ p) where
  inv := hσ
  apart := World.apart_start σ p
  held _ := db.held_nil σ
  holds i := ⟨(hp i).during σ hσ, (hp i).wp σ hσ⟩

section Step

variable {C : ι → Contract D ε α} {w : World Reply Store Write ε α ι}

omit [DecidableEq ι] in
/-- The store a session finds when it takes its next step. -/
theorem World.Sound.found (hw : w.Sound C) (i : ι) {J : List Write → Store → Prop}
    (hJ : J (w.held i) w.store) : Found D J (w.held i) w.store w.store :=
  ⟨Discipline.Env.refl _ _, hw.inv, hw.held i, hJ⟩

omit [DecidableEq ι] in
/-- A commit is one that the discipline allows. -/
theorem World.Sound.commits (hw : w.Sound C) {i : ι} {a : α} {δ : List Write}
    (hi : w.session i = .answered a (.ret ()) δ) :
    D.Commits w.store δ ∧ db.Held δ w.store ∧ (C i).Open a δ w.store := by
  have hh := hw.holds i
  have hheld := hw.held i
  have hf := hw.found i (J := (C i).Open a)
  simp only [World.held, hi, Session.writes] at hheld hf
  rw [hi] at hh
  exact ⟨(hh.2 _ (hf hh.1)).1, hheld, hh.1⟩

omit [DecidableEq ι] in
/-- To every other session a commit is a step of its surroundings. -/
theorem World.Sound.envStep (hw : w.Sound C) {i j : ι} {a : α} {δ : List Write}
    (hi : w.session i = .answered a (.ret ()) δ) (hj : j ≠ i) :
    D.EnvStep (w.held j) w.store (db.view w.store δ) := by
  obtain ⟨hcommit, hheld, -⟩ := hw.commits hi
  have hap := hw.apart j i hj
  simp only [World.held, hi, Session.writes] at hap
  exact ⟨hw.inv, hw.held j, δ, hcommit, hheld, hap, rfl⟩

/-- To every other session a step is at most a step of its surroundings. -/
theorem World.Sound.env (hw : w.Sound C) {w' : World Reply Store Write ε α ι} {i j : ι}
    {b : Action} (h : Step db w (i, b) w') (hj : j ≠ i) :
    D.Env (w.held j) w.store w'.store := by
  by_cases hb : b = .commit
  · subst hb
    obtain ⟨a, δ, hi, hstore, -⟩ := h.store_commit
    rw [hstore]
    exact .single (hw.envStep hi hj)
  · rw [h.store_eq hb]
    exact .refl _ _

/-- A step that leaves the store as it is keeps the world sound, if the session that
takes it is afterwards where its contract says. -/
theorem World.Sound.set (hw : w.Sound C) {i : ι} {s : Session Reply Write ε α}
    (happ : (w.set i s).Apart db) (hheld : db.Held s.writes w.store)
    (hs : (C i).Holds s w.store) : (w.set i s).Sound C where
  inv := hw.inv
  apart := happ
  held j := by
    by_cases hj : j = i
    · subst hj
      simpa only [World.held, World.set_store, World.set_session_self] using hheld
    · simpa only [World.held, World.set_store, World.set_session_ne _ hj] using hw.held j
  holds j := by
    by_cases hj : j = i
    · subst hj
      simpa only [World.set_store, World.set_session_self] using hs
    · simpa only [World.set_store, World.set_session_ne _ hj] using hw.holds j

theorem World.Sound.step {w' : World Reply Store Write ε α ι} {l : ι × Action}
    (hw : w.Sound C) (h : Step db w l w') : w'.Sound C := by
  have happ := hw.apart.step h
  cases h with
  | @statement i s k δ hi free =>
    have hheld := hw.held i
    have hh := hw.holds i
    have hf := hw.found i (J := (C i).During)
    simp only [World.held, hi, Session.writes] at hheld hf
    rw [hi] at hh
    obtain ⟨hJ, hrest⟩ := hh.2 _ (hf hh.1)
    exact hw.set happ (db.held_exec s hheld) ⟨hJ, hrest⟩
  | @exitStatement i a s k δ hi free =>
    have hheld := hw.held i
    have hh := hw.holds i
    have hf := hw.found i (J := (C i).Open a)
    simp only [World.held, hi, Session.writes] at hheld hf
    rw [hi] at hh
    obtain ⟨hJ, hrest⟩ := hh.2 _ (hf hh.1)
    exact hw.set happ (db.held_exec s hheld) ⟨hJ, hrest⟩
  | @answer i a exit δ hi =>
    have hheld := hw.held i
    have hh := hw.holds i
    have hf := hw.found i (J := (C i).During)
    simp only [World.held, hi, Session.writes] at hheld hf
    rw [hi] at hh
    obtain ⟨ha, hexit⟩ := hh.2 _ (hf hh.1)
    exact hw.set happ hheld ⟨⟨hh.1, ha⟩, hexit⟩
  | @raise i e δ hi =>
    have hh := hw.holds i
    have hf := hw.found i (J := (C i).During)
    simp only [World.held, hi, Session.writes] at hf
    rw [hi] at hh
    exact hw.set happ (db.held_nil _) (hh.2 _ (hf hh.1))
  | exitRaise hi => exact hw.set happ (db.held_nil _) trivial
  | @commit i a δ hi =>
    have hh := hw.holds i
    have hheld := hw.held i
    have hf := hw.found i (J := (C i).Open a)
    simp only [World.held, hi, Session.writes] at hheld hf
    rw [hi] at hh
    obtain ⟨hcommit, hdone⟩ := hh.2 _ (hf hh.1)
    have henv := fun j (hj : j ≠ i) => hw.envStep hi hj
    refine ⟨D.inv_commit hw.inv hcommit hheld, happ, fun j => ?_, fun j => ?_⟩
    · by_cases hj : j = i
      · subst hj
        simpa only [World.held, Function.update_self, Session.writes] using db.held_nil _
      · simpa only [World.held, Function.update_of_ne hj] using (henv j hj).held_after
    · by_cases hj : j = i
      · subst hj
        simpa only [Function.update_self, Contract.Holds] using hdone
      · simpa only [Function.update_of_ne hj] using (hw.holds j).env _ (henv j hj)
  | abort hi => exact hw.set happ (db.held_nil _) trivial
  | lose hi => exact hw.set happ (db.held_nil _) trivial

/-- **Soundness.** Requests that meet their contracts keep them in every interleaving. -/
theorem World.Sound.run {w' : World Reply Store Write ε α ι} {ls : List (ι × Action)}
    (hw : w.Sound C) (h : Run db w ls w') : w'.Sound C :=
  h.invariant hw (fun hv hs => hv.step hs)

end Step

/-! ## Watching one session of a sound world -/

/-- What a precondition says of a session that is here: its program still has it, and what
it has ended in by an exception satisfied the postcondition at that time. -/
def Session.Watched (D : Discipline db) (J : List Write → Store → Prop)
    (Q : Except ε (α × Prog Reply ε Unit) → List Write → Store → Prop) :
    Session Reply Write ε α → Store → Prop
  | .running p δ, σ => J δ σ ∧ Wp D J p Q δ σ
  | .failed e, σ => ∃ δ σ', Q (.error e) δ σ' ∧ D.Env [] σ' σ
  | _, _ => True

variable {C : ι → Contract D ε α} {w w' : World Reply Store Write ε α ι}
  {J : List Write → Store → Prop}
  {Q : Except ε (α × Prog Reply ε Unit) → List Write → Store → Prop}

theorem Session.Watched.env (hJ : ∀ {δ σ σ'}, J δ σ → D.EnvStep δ σ σ' → J δ σ')
    {s : Session Reply Write ε α} {σ σ' : Store} (h : s.Watched D J Q σ)
    (he : D.Env s.writes σ σ') : s.Watched D J Q σ' := by
  cases s with
  | running p δ => exact ⟨he.keeps h.1 (fun hs hj => hJ hj hs), h.2.env he⟩
  | failed e =>
    obtain ⟨δ, σ₀, hQ, he₀⟩ := h
    exact ⟨δ, σ₀, hQ, he₀.trans he⟩
  | _ => trivial

/-- A precondition of one request is kept by every step of a sound world, whoever takes
it. -/
theorem World.Sound.watch_step (hJ : ∀ {δ σ σ'}, J δ σ → D.EnvStep δ σ σ' → J δ σ')
    (hw : w.Sound C) {l : ι × Action} (h : Step db w l w') {i : ι}
    (hi : (w.session i).Watched D J Q w.store) : (w'.session i).Watched D J Q w'.store := by
  obtain ⟨j, b⟩ := l
  by_cases hij : i = j
  · subst hij
    have hf := hw.found i (J := J)
    cases h with
    | statement hs free =>
      rw [hs] at hi
      simp only [World.held, hs, Session.writes] at hf
      rw [World.set_session_self]
      exact hi.2 _ (hf hi.1)
    | raise hs =>
      rw [hs] at hi
      simp only [World.held, hs, Session.writes] at hf
      rw [World.set_session_self]
      exact ⟨_, _, hi.2 _ (hf hi.1), .refl _ _⟩
    | commit hs => simp only [Function.update_self, Session.Watched]
    | _ => rw [World.set_session_self]; trivial
  · rw [h.session_ne hij]
    exact hi.env hJ (hw.env h hij)

theorem World.Sound.watch (hJ : ∀ {δ σ σ'}, J δ σ → D.EnvStep δ σ σ' → J δ σ')
    (hw : w.Sound C) {ls : List (ι × Action)} (h : Run db w ls w') {i : ι}
    (hi : (w.session i).Watched D J Q w.store) : (w'.session i).Watched D J Q w'.store := by
  induction h with
  | nil => exact hi
  | snoc hrun hs ih => exact (hw.run hrun).watch_step hJ hs ih

end Transactions
