import ContentApproval.Transactions.Program

/-!
# Interleavings of transactions

A `World` is the committed store and where each request stands. A step (`Step`) is one
statement of one session, the sending of its answer, its commit or its end by an
exception or from outside; `Run` is a sequence of such steps in any order. The isolation
level is READ COMMITTED: a statement sees the store as last committed and the writes of
its own session, and a statement that wants to write what an open session holds waits
until that session has ended.

* `Run.apart`: no two open sessions hold writes that exclude one another.
* `Run.history`: the store is the initial store with the writes of the committed
  sessions applied in the order of their commits.
* `Run.erase`: a session that was never answered can be taken out of the run, and
  nobody else's session and nothing in the store is different.
-/

namespace Transactions

variable {Stmt : Type} {Reply : Stmt → Type} {ε α Store Write ι : Type} [DecidableEq ι]

/-- The committed store and the sessions of all requests. -/
structure World (Reply : Stmt → Type) (Store Write ε α ι : Type) where
  store : Store
  session : ι → Session Reply Write ε α

namespace World

/-- The world in which no request has sent a statement yet. -/
def start (σ : Store) (p : ι → Request Reply ε α) : World Reply Store Write ε α ι :=
  ⟨σ, fun i => .running (p i) []⟩

def set (w : World Reply Store Write ε α ι) (i : ι) (s : Session Reply Write ε α) :
    World Reply Store Write ε α ι :=
  ⟨w.store, Function.update w.session i s⟩

/-- The uncommitted writes of session `i`. -/
def held (w : World Reply Store Write ε α ι) (i : ι) : List Write := (w.session i).writes

@[simp] theorem set_store (w : World Reply Store Write ε α ι) (i : ι)
    (s : Session Reply Write ε α) : (w.set i s).store = w.store := rfl

@[simp] theorem set_session_self (w : World Reply Store Write ε α ι) (i : ι)
    (s : Session Reply Write ε α) : (w.set i s).session i = s := by
  simp [set]

theorem set_session_ne (w : World Reply Store Write ε α ι) {i j : ι} (h : j ≠ i)
    (s : Session Reply Write ε α) : (w.set i s).session j = w.session j := by
  simp [set, h]

end World

/-- What a session does in one step. -/
inductive Action
  /-- It sends its next statement and gets the reply. -/
  | statement
  /-- It sends its answer to the client. -/
  | answer
  /-- It ends by an exception of its own program. -/
  | raise
  | commit
  /-- It is rolled back before its answer for a reason that its program does not have: the client or
  the process goes away, or the driver raises for a statement, be it for a lost connection or for a
  value that the database does not take. Where the program is the one against such a database, the
  latter is a `raise`. -/
  | abort
  /-- The same after its answer. -/
  | lose
  deriving DecidableEq

/-- One step of one session, labelled with the session and with what it did. -/
inductive Step (db : Database Reply Store Write) :
    World Reply Store Write ε α ι → ι × Action → World Reply Store Write ε α ι → Prop
  | statement {w i s k δ} (h : w.session i = .running (.exec s k) δ)
      (free : ∀ j, j ≠ i → ∀ x ∈ w.held j, ¬ db.Waits s x) :
      Step db w (i, .statement) (w.set i (.running (k (db.exec s (db.view w.store δ)).1)
        (δ ++ (db.exec s (db.view w.store δ)).2)))
  | exitStatement {w i a s k δ} (h : w.session i = .answered a (.exec s k) δ)
      (free : ∀ j, j ≠ i → ∀ x ∈ w.held j, ¬ db.Waits s x) :
      Step db w (i, .statement) (w.set i (.answered a (k (db.exec s (db.view w.store δ)).1)
        (δ ++ (db.exec s (db.view w.store δ)).2)))
  | answer {w i a exit δ} (h : w.session i = .running (.ret (a, exit)) δ) :
      Step db w (i, .answer) (w.set i (.answered a exit δ))
  | raise {w i e δ} (h : w.session i = .running (.throw e) δ) :
      Step db w (i, .raise) (w.set i (.failed e))
  | exitRaise {w i a e δ} (h : w.session i = .answered a (.throw e) δ) :
      Step db w (i, .raise) (w.set i (.lost a))
  | commit {w i a δ} (h : w.session i = .answered a (.ret ()) δ) :
      Step db w (i, .commit)
        ⟨db.view w.store δ, Function.update w.session i (.committed a δ)⟩
  | abort {w i p δ} (h : w.session i = .running p δ) :
      Step db w (i, .abort) (w.set i .aborted)
  | lose {w i a exit δ} (h : w.session i = .answered a exit δ) :
      Step db w (i, .lose) (w.set i (.lost a))

/-- Steps one after the other, in any order of the sessions. -/
inductive Run (db : Database Reply Store Write) (w : World Reply Store Write ε α ι) :
    List (ι × Action) → World Reply Store Write ε α ι → Prop
  | nil : Run db w [] w
  | snoc {ls l w' w''} : Run db w ls w' → Step db w' l w'' → Run db w (ls ++ [l]) w''

variable {db : Database Reply Store Write} {w w' w'' : World Reply Store Write ε α ι}

theorem Run.single {l : ι × Action} (h : Step db w l w') : Run db w [l] w' :=
  Run.snoc Run.nil h

theorem Run.trans {ls ls' : List (ι × Action)} (h : Run db w ls w') (h' : Run db w' ls' w'') :
    Run db w (ls ++ ls') w'' := by
  induction h' with
  | nil => simpa using h
  | snoc _ hs ih => rw [← List.append_assoc]; exact Run.snoc ih hs

/-- What holds at the start and is kept by every step holds after every run. -/
theorem Run.invariant {P : World Reply Store Write ε α ι → Prop} {ls : List (ι × Action)}
    (h : Run db w ls w') (h0 : P w)
    (hstep : ∀ {v l v'}, P v → Step db v l v' → P v') : P w' := by
  induction h with
  | nil => exact h0
  | snoc _ hs ih => exact hstep ih hs

/-! ## What one step changes -/

/-- Only the session that takes the step changes. -/
theorem Step.session_ne {i j : ι} {a : Action} (h : Step db w (i, a) w') (hj : j ≠ i) :
    w'.session j = w.session j := by
  cases h <;> simp [World.set, hj]

/-- Only a commit changes the store. -/
theorem Step.store_eq {i : ι} {a : Action} (h : Step db w (i, a) w') (ha : a ≠ .commit) :
    w'.store = w.store := by
  cases h <;> first | rfl | exact absurd rfl ha

/-- A commit applies the writes that its session holds. -/
theorem Step.store_commit {i : ι} (h : Step db w (i, .commit) w') :
    ∃ a δ, w.session i = .answered a (.ret ()) δ ∧ w'.store = db.view w.store δ ∧
      w'.session i = .committed a δ := by
  cases h with
  | commit h => exact ⟨_, _, h, rfl, by simp⟩

/-- The session that has just sent its answer. -/
theorem Step.answered {i : ι} (h : Step db w (i, .answer) w') {a : α}
    (ha : (w'.session i).answer? = some a) : ∃ exit δ, w'.session i = .answered a exit δ := by
  cases h with
  | answer _ =>
    rw [World.set_session_self] at ha ⊢
    obtain rfl := Option.some.inj ha
    exact ⟨_, _, rfl⟩

/-- A session that is not yet answered after a step was not answered before it. -/
theorem Step.unanswered {i : ι} {l : ι × Action} (h : Step db w l w')
    (hi : (w'.session i).answer? = none) : (w.session i).answer? = none := by
  obtain ⟨j, a⟩ := l
  by_cases hij : i = j
  · subst hij
    cases h <;> simp_all [Session.answer?]
  · rwa [← h.session_ne hij]

/-! ## Open sessions do not exclude one another -/

/-- No two sessions hold writes that exclude one another. -/
def World.Apart (db : Database Reply Store Write) (w : World Reply Store Write ε α ι) : Prop :=
  ∀ i j, i ≠ j → db.Apart (w.held i) (w.held j)

omit [DecidableEq ι] in
theorem World.apart_start (σ : Store) (p : ι → Request Reply ε α) :
    (World.start σ p).Apart db := fun _ _ _ => Database.apart_nil _

/-- The writes that a step adds to its session exclude no write of another session. -/
theorem Step.apart_held {i j : ι} {a : Action} (h : Step db w (i, a) w') (hw : w.Apart db)
    (hj : j ≠ i) : db.Apart (w'.held i) (w.held j) := by
  have hij : db.Apart (w.held i) (w.held j) := hw i j (Ne.symm hj)
  cases h with
  | statement h free =>
    simp only [World.held, h, World.set_session_self, Session.writes] at hij ⊢
    intro x hx x' hx' hc
    rcases List.mem_append.mp hx with hx | hx
    · exact hij x hx x' hx' hc
    · exact free j hj x' hx' (db.waits_of_conflict hx hc)
  | exitStatement h free =>
    simp only [World.held, h, World.set_session_self, Session.writes] at hij ⊢
    intro x hx x' hx' hc
    rcases List.mem_append.mp hx with hx | hx
    · exact hij x hx x' hx' hc
    · exact free j hj x' hx' (db.waits_of_conflict hx hc)
  | answer h => simpa [World.held, h, Session.writes] using hij
  | _ => simp [World.held, Session.writes]

theorem World.Apart.step {l : ι × Action} (hw : w.Apart db) (h : Step db w l w') :
    w'.Apart db := by
  obtain ⟨i, a⟩ := l
  intro j k hjk
  by_cases hj : j = i
  · subst hj
    have hk : w'.held k = w.held k := by simp only [World.held, h.session_ne (Ne.symm hjk)]
    rw [hk]
    exact h.apart_held hw (Ne.symm hjk)
  · have hj' : w'.held j = w.held j := by simp only [World.held, h.session_ne hj]
    rw [hj']
    by_cases hk : k = i
    · subst hk
      exact (h.apart_held hw hj).symm
    · have hk' : w'.held k = w.held k := by simp only [World.held, h.session_ne hk]
      rw [hk']
      exact hw j k hjk

theorem Run.apart {ls : List (ι × Action)} (h : Run db w ls w') (hw : w.Apart db) :
    w'.Apart db :=
  h.invariant hw (fun hv hs => hv.step hs)

/-! ## The store is the history of the commits -/

/-- The commits behind a store: each committed session once, with its writes. -/
structure History (db : Database Reply Store Write) (σ : Store)
    (w : World Reply Store Write ε α ι) (commits : List (ι × List Write)) : Prop where
  nodup : (commits.map Prod.fst).Nodup
  session : ∀ i δ, (i, δ) ∈ commits ↔ ∃ a, w.session i = .committed a δ
  store : w.store = db.view σ (commits.flatMap Prod.snd)

omit [DecidableEq ι] in
theorem History.start (σ : Store) (p : ι → Request Reply ε α) :
    History db σ (World.start σ p) [] where
  nodup := List.nodup_nil
  session := by simp [World.start]
  store := rfl

/-- A committed session stays as it is. -/
theorem Step.committed {i : ι} {l : ι × Action} {a : α} {δ : List Write}
    (h : Step db w l w') (hi : w.session i = .committed a δ) :
    w'.session i = .committed a δ := by
  obtain ⟨j, b⟩ := l
  by_cases hij : i = j
  · subst hij
    cases h <;> simp_all
  · rw [h.session_ne hij, hi]

/-- A session is committed by its commit only. -/
theorem Step.committed_of {i : ι} {j : ι} {b : Action} {a : α} {δ : List Write}
    (h : Step db w (j, b) w') (hi : w'.session i = .committed a δ) :
    w.session i = .committed a δ ∨ (i = j ∧ b = .commit) := by
  by_cases hij : i = j
  · subst hij
    cases h <;> simp_all
  · exact Or.inl (by rw [← h.session_ne hij, hi])

/-- A session that has committed did so at one of the steps. -/
theorem Run.exists_commit {ls : List (ι × Action)} {i : ι} {a : α} {δ : List Write}
    (h : Run db w ls w') (hi : w'.session i = .committed a δ)
    (hstart : w.session i ≠ .committed a δ) : ∃ ls₁ ls₂ v v', ls = ls₁ ++ (i, .commit) :: ls₂ ∧
      Run db w ls₁ v ∧ Step db v (i, .commit) v' ∧ Run db v' ls₂ w' := by
  induction h with
  | nil => exact absurd hi hstart
  | @snoc ls l v v' hrun hs ih =>
    obtain ⟨j, b⟩ := l
    rcases hs.committed_of hi with hv | ⟨rfl, rfl⟩
    · obtain ⟨ls₁, ls₂, u, u', rfl, h₁, hcommit, h₂⟩ := ih hv
      exact ⟨ls₁, ls₂ ++ [(j, b)], u, u', by simp, h₁, hcommit, h₂.snoc hs⟩
    · exact ⟨ls, [], v, v', rfl, hrun, hs, .nil⟩

/-- A session that takes no step stays where it is. -/
theorem Run.session_eq {ls : List (ι × Action)} {i : ι} (h : Run db w ls w')
    (hi : ∀ b, (i, b) ∉ ls) : w'.session i = w.session i := by
  induction h with
  | nil => rfl
  | @snoc ls l v v' _ hs ih =>
    obtain ⟨j, b⟩ := l
    have hij : i ≠ j := by
      rintro rfl
      exact hi b (List.mem_append_right _ List.mem_cons_self)
    rw [hs.session_ne hij, ih fun b' hb' => hi b' (List.mem_append_left _ hb')]

/-- A session that has failed has raised at one of the steps. -/
theorem Run.raise_mem {ls : List (ι × Action)} {i : ι} {e : ε} (h : Run db w ls w')
    (hi : w'.session i = .failed e) (hstart : w.session i ≠ .failed e) : (i, .raise) ∈ ls := by
  induction h with
  | nil => exact absurd hi hstart
  | @snoc ls l v v' _ hs ih =>
    by_cases hv : v.session i = .failed e
    · exact List.mem_append_left _ (ih hv)
    · obtain ⟨j, b⟩ := l
      by_cases hij : i = j
      · subst hij
        cases hs <;> simp_all
      · exact absurd ((hs.session_ne hij).symm.trans hi) hv

theorem Run.committed {ls : List (ι × Action)} {i : ι} {a : α} {δ : List Write}
    (h : Run db w ls w') (hi : w.session i = .committed a δ) : w'.session i = .committed a δ :=
  h.invariant hi fun hv hs => hs.committed hv

theorem History.step {σ : Store} {commits : List (ι × List Write)} {l : ι × Action}
    (hw : History db σ w commits) (h : Step db w l w') : ∃ commits', History db σ w' commits' := by
  obtain ⟨i, b⟩ := l
  by_cases hb : b = .commit
  · subst hb
    obtain ⟨a, δ, hi, hstore, hi'⟩ := h.store_commit
    refine ⟨commits ++ [(i, δ)], ?_, ?_, ?_⟩
    · rw [List.map_append, List.nodup_append]
      refine ⟨hw.nodup, by simp, ?_⟩
      intro j hj k hk hjk
      simp only [List.map_cons, List.map_nil, List.mem_singleton] at hk
      obtain ⟨⟨j', δ'⟩, hmem, rfl⟩ := List.mem_map.mp hj
      obtain ⟨a', ha'⟩ := (hw.session j' δ').mp hmem
      simp only at hjk
      rw [hjk, hk, hi] at ha'
      cases ha'
    · intro j δ'
      rw [List.mem_append, List.mem_singleton, hw.session]
      constructor
      · rintro (⟨a', ha'⟩ | hj)
        · exact ⟨a', h.committed ha'⟩
        · obtain ⟨rfl, rfl⟩ := Prod.mk.inj hj
          exact ⟨a, hi'⟩
      · rintro ⟨a', ha'⟩
        rcases h.committed_of ha' with hj | ⟨rfl, -⟩
        · exact Or.inl ⟨a', hj⟩
        · rw [hi'] at ha'
          cases ha'
          exact Or.inr rfl
    · rw [hstore, hw.store, List.flatMap_append, Database.view_append]
      simp
  · refine ⟨commits, hw.nodup, ?_, by rw [h.store_eq hb, hw.store]⟩
    intro j δ
    rw [hw.session]
    constructor
    · rintro ⟨a, ha⟩
      exact ⟨a, h.committed ha⟩
    · rintro ⟨a, ha⟩
      rcases h.committed_of ha with hj | ⟨-, hc⟩
      · exact ⟨a, hj⟩
      · exact absurd hc hb

theorem Run.history {σ : Store} {p : ι → Request Reply ε α} {ls : List (ι × Action)}
    (h : Run db (World.start σ p) ls w) : ∃ commits, History db σ w commits :=
  h.invariant (P := fun v => ∃ commits, History db σ v commits) ⟨[], History.start σ p⟩
    (fun ⟨_, hv⟩ hs => hv.step hs)

/-! ## Taking a session that was never answered out of a run -/

/-- The world with session `i` put back to where it was at the start. -/
def World.without (w w₀ : World Reply Store Write ε α ι) (i : ι) :
    World Reply Store Write ε α ι :=
  w.set i (w₀.session i)

theorem World.held_without {w₀ : World Reply Store Write ε α ι} {i : ι}
    (h₀ : w₀.held i = []) (j : ι) : ∀ x ∈ (w.without w₀ i).held j, x ∈ w.held j := by
  intro x hx
  by_cases hj : j = i
  · subst hj
    simp only [World.held, World.without, World.set_session_self] at hx h₀
    rw [h₀] at hx
    cases hx
  · simpa only [World.held, World.without, World.set_session_ne _ hj] using hx

/-- A step of another session is also possible without session `i`. -/
theorem Step.without {w₀ : World Reply Store Write ε α ι} {i j : ι} {a : Action}
    (h : Step db w (j, a) w') (hj : j ≠ i) (h₀ : w₀.held i = []) :
    Step db (w.without w₀ i) (j, a) (w'.without w₀ i) := by
  have hset : ∀ s, (w.set j s).without w₀ i = (w.without w₀ i).set j s := by
    intro s
    simp only [World.without, World.set, Function.update_comm hj]
  have hsess : (w.without w₀ i).session j = w.session j := World.set_session_ne _ hj _
  cases h with
  | statement h free =>
    rw [hset]
    exact Step.statement (hsess.trans h)
      (fun k hk x hx => free k hk x (World.held_without h₀ k x hx))
  | exitStatement h free =>
    rw [hset]
    exact Step.exitStatement (hsess.trans h)
      (fun k hk x hx => free k hk x (World.held_without h₀ k x hx))
  | answer h => rw [hset]; exact Step.answer (hsess.trans h)
  | raise h => rw [hset]; exact Step.raise (hsess.trans h)
  | exitRaise h => rw [hset]; exact Step.exitRaise (hsess.trans h)
  | commit h =>
    have hc : Step db _ _ _ := Step.commit (hsess.trans h)
    simpa only [World.without, World.set, Function.update_comm hj] using hc
  | abort h => rw [hset]; exact Step.abort (hsess.trans h)
  | lose h => rw [hset]; exact Step.lose (hsess.trans h)

/-- A step of a session that is not answered after it changes nothing but that session. -/
theorem Step.without_self {w₀ : World Reply Store Write ε α ι} {i : ι} {a : Action}
    (h : Step db w (i, a) w') (hi : (w'.session i).answer? = none) :
    w'.without w₀ i = w.without w₀ i := by
  have hstore : w'.store = w.store := by
    cases h with
    | commit h => simp [Session.answer?] at hi
    | _ => rfl
  have hsess : ∀ j, j ≠ i → w'.session j = w.session j := fun j hj => h.session_ne hj
  simp only [World.without, World.set, World.mk.injEq, hstore, true_and]
  funext j
  by_cases hj : j = i
  · subst hj
    simp
  · simp [hj, hsess j hj]

/-- **A session that was never answered leaves no trace.** Without its steps the run
reaches the same store and the same sessions of everyone else. -/
theorem Run.erase {w₀ : World Reply Store Write ε α ι} {ls : List (ι × Action)} {i : ι}
    (h : Run db w₀ ls w) (h₀ : w₀.held i = []) (hi : (w.session i).answer? = none) :
    Run db w₀ (ls.filter (fun l => l.1 ≠ i)) (w.without w₀ i) := by
  induction h with
  | nil =>
    have : w₀.without w₀ i = w₀ := by simp [World.without, World.set]
    rw [this]
    exact Run.nil
  | @snoc ls l w' w'' _ hs ih =>
    obtain ⟨j, a⟩ := l
    have hprev := ih (hs.unanswered hi)
    rw [List.filter_append]
    by_cases hj : j = i
    · subst hj
      rw [hs.without_self hi]
      simpa using hprev
    · simpa [hj] using Run.snoc hprev (hs.without hj h₀)

end Transactions
