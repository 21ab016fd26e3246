import ContentApproval.Transactions.RelyGuarantee
import Mathlib.Data.List.Induction

/-!
# Requests one after the other

A sequence of requests, each served to its end before the next one starts
(`serveAll`), is one of the runs of the world in which all of them may interleave
(`Run.serveAll`).
-/

namespace Transactions

variable {Stmt : Type} {Reply : Stmt → Type} {ε α Store Write ι : Type}
  {db : Database Reply Store Write}

/-- Serve the requests in this order: the store after the last of them, and for each one
where its session ended and the statements it sent. -/
def serveAll (db : Database Reply Store Write) :
    List (Request Reply ε α) → Store → Store × List (Session Reply Write ε α × List Stmt)
  | [], σ => (σ, [])
  | p :: ps, σ =>
    let first := p.serve db σ
    let rest := serveAll db ps first.1
    (rest.1, first.2 :: rest.2)

theorem serveAll_append (ps qs : List (Request Reply ε α)) (σ : Store) :
    serveAll db (ps ++ qs) σ =
      ((serveAll db qs (serveAll db ps σ).1).1,
        (serveAll db ps σ).2 ++ (serveAll db qs (serveAll db ps σ).1).2) := by
  induction ps generalizing σ with
  | nil => rfl
  | cons p ps ih => simp only [List.cons_append, serveAll, ih]

/-- The last construct of a program with this result. -/
def Prog.stop : Except ε α → Prog Reply ε α
  | .ok a => .ret a
  | .error e => .throw e

variable [DecidableEq ι] {w : World Reply Store Write ε α ι}

/-- Steps of one session that nobody outside forces on it. -/
def Own (i : ι) (ls : List (ι × Action)) : Prop :=
  ∀ l ∈ ls, l.1 = i ∧ l.2 ≠ .abort ∧ l.2 ≠ .lose

theorem World.set_set (w : World Reply Store Write ε α ι) (i : ι)
    (s s' : Session Reply Write ε α) : (w.set i s).set i s' = w.set i s' := by
  simp [World.set]

theorem World.set_eq_self {i : ι} {s : Session Reply Write ε α} (h : w.session i = s) :
    w.set i s = w := by
  subst h
  simp [World.set]

/-! ## Where a session ends if nobody interferes -/

variable (db) in
/-- Where the rest `exit` of a transaction ends that runs after the answer `a`. -/
def Prog.finish (exit : Prog Reply ε Unit) (a : α) (σ : Store) (δ : List Write) :
    Session Reply Write ε α :=
  match (exit.run db σ δ).result with
  | .error _ => .lost a
  | .ok () => .committed a (exit.run db σ δ).writes

variable (db) in
/-- Where a session ends if nobody interferes with it any more. -/
def Session.finish (σ : Store) : Session Reply Write ε α → Session Reply Write ε α
  | .running p δ => match (p.run db σ δ).result with
    | .error e => .failed e
    | .ok (a, exit) => exit.finish db a σ (p.run db σ δ).writes
  | .answered a exit δ => exit.finish db a σ δ
  | s => s

omit [DecidableEq ι] in
theorem Session.Finished.finish {s : Session Reply Write ε α} (h : s.Finished) (σ : Store) :
    s.finish db σ = s := by
  cases s with
  | running p δ => exact absurd h id
  | answered a exit δ => exact absurd h id
  | _ => rfl

variable (db) in
/-- Serving a request takes its session to the end. -/
theorem Prog.serve_eq_finish (p : Request Reply ε α) (σ : Store) :
    (p.serve db σ).2.1 = (Session.running p []).finish db σ := by
  unfold Prog.serve Session.finish Prog.finish
  dsimp only
  cases (p.run db σ []).result with
  | error e => rfl
  | ok r =>
    dsimp only
    cases (r.2.run db σ (p.run db σ []).writes).result <;> rfl

/-- A committed session that was served has left its writes in the store. -/
theorem Prog.serve_committed {p : Request Reply ε α} {σ : Store} {a : α} {δ : List Write}
    (h : (p.serve db σ).2.1 = .committed a δ) : (p.serve db σ).1 = db.view σ δ := by
  unfold Prog.serve at h ⊢
  dsimp only at h ⊢
  split at h
  · cases h
  · split at h
    · cases h
    · cases h
      rfl

/-- A session that was served and did not commit has changed nothing. -/
theorem Prog.serve_uncommitted {p : Request Reply ε α} {σ : Store}
    (h : ∀ a δ, (p.serve db σ).2.1 ≠ .committed a δ) : (p.serve db σ).1 = σ := by
  unfold Prog.serve at h ⊢
  dsimp only at h ⊢
  split
  · rfl
  · rename_i a exit hbody
    rw [hbody] at h
    dsimp only at h
    split
    · rfl
    · rename_i hexit
      rw [hexit] at h
      exact absurd rfl (h _ _)

/-- **On track.** As long as the store is the same, no step of its own changes where a
session ends, unless somebody forces it. -/
theorem Step.finish {w' : World Reply Store Write ε α ι} {i : ι} {b : Action}
    (h : Step db w (i, b) w') (hb : b ≠ .abort ∧ b ≠ .lose) :
    (w'.session i).finish db w.store = (w.session i).finish db w.store := by
  cases h with
  | statement hi free => rw [World.set_session_self, hi]; rfl
  | exitStatement hi free => rw [World.set_session_self, hi]; rfl
  | answer hi => rw [World.set_session_self, hi]; rfl
  | raise hi => rw [World.set_session_self, hi]; rfl
  | exitRaise hi => rw [World.set_session_self, hi]; rfl
  | commit hi => simp only [Function.update_self, hi]; rfl
  | abort hi => exact absurd rfl hb.1
  | lose hi => exact absurd rfl hb.2

/-! ## Sessions that run alone -/

/-- Nobody but session `i` holds uncommitted writes. -/
def World.Quiet (w : World Reply Store Write ε α ι) (i : ι) : Prop :=
  ∀ j, j ≠ i → w.held j = []

omit [DecidableEq ι] in
theorem World.Quiet.free (hq : w.Quiet i) (s : Stmt) :
    ∀ j, j ≠ i → ∀ x ∈ w.held j, ¬ db.Waits s x := by
  intro j hj x hx
  rw [hq j hj] at hx
  cases hx

theorem World.Quiet.set (hq : w.Quiet i) (s : Session Reply Write ε α) : (w.set i s).Quiet i := by
  intro j hj
  simpa only [World.held, World.set_session_ne _ hj] using hq j hj

variable (db) in
/-- A session runs its program to the end while nobody else holds anything. -/
theorem Run.body {i : ι} {p : Request Reply ε α} {δ : List Write}
    (hq : w.Quiet i) (hi : w.session i = .running p δ) :
    ∃ ls, Own i ls ∧ Run db w ls
      (w.set i (.running (.stop (p.run db w.store δ).result) (p.run db w.store δ).writes)) := by
  induction p generalizing w δ with
  | ret a => exact ⟨[], by simp [Own], by rw [Prog.run, Prog.stop, w.set_eq_self hi]; exact .nil⟩
  | throw e => exact ⟨[], by simp [Own], by rw [Prog.run, Prog.stop, w.set_eq_self hi]; exact .nil⟩
  | exec s k ih =>
    obtain ⟨ls, hown, hrun⟩ := ih _ (hq.set _) (World.set_session_self _ _ _)
    refine ⟨[(i, .statement)] ++ ls, ?_, ?_⟩
    · intro l hl
      rcases List.mem_append.mp hl with hl | hl
      · rw [List.mem_singleton.mp hl]
        simp
      · exact hown l hl
    · have hfirst := Run.single (Step.statement hi (hq.free s) : Step db _ _ _)
      have := hfirst.trans hrun
      rwa [World.set_set] at this

variable (db) in
/-- The rest of the transaction runs to its end while nobody else holds anything. -/
theorem Run.exit {i : ι} {a : α} {p : Prog Reply ε Unit} {δ : List Write}
    (hq : w.Quiet i) (hi : w.session i = .answered a p δ) :
    ∃ ls, Own i ls ∧ Run db w ls
      (w.set i (.answered a (.stop (p.run db w.store δ).result) (p.run db w.store δ).writes)) := by
  induction p generalizing w δ with
  | ret a => exact ⟨[], by simp [Own], by rw [Prog.run, Prog.stop, w.set_eq_self hi]; exact .nil⟩
  | throw e => exact ⟨[], by simp [Own], by rw [Prog.run, Prog.stop, w.set_eq_self hi]; exact .nil⟩
  | exec s k ih =>
    obtain ⟨ls, hown, hrun⟩ := ih _ (hq.set _) (World.set_session_self _ _ _)
    refine ⟨[(i, .statement)] ++ ls, ?_, ?_⟩
    · intro l hl
      rcases List.mem_append.mp hl with hl | hl
      · rw [List.mem_singleton.mp hl]
        simp
      · exact hown l hl
    · have hfirst := Run.single (Step.exitStatement hi (hq.free s) : Step db _ _ _)
      have := hfirst.trans hrun
      rwa [World.set_set] at this

omit [DecidableEq ι] in
theorem Own.append {i : ι} {ls ls' : List (ι × Action)} (h : Own i ls) (h' : Own i ls') :
    Own i (ls ++ ls') := by
  intro l hl
  rcases List.mem_append.mp hl with hl | hl
  · exact h l hl
  · exact h' l hl

variable (db) in
/-- The answer of a request without interference. -/
def Prog.answer? (p : Request Reply ε α) (σ : Store) : Option α :=
  match (p.run db σ []).result with
  | .ok (a, _) => some a
  | .error _ => none

variable (db) in
/-- What is left of a program after its first statement. -/
def Prog.afterFirst (σ : Store) : Prog Reply ε α → Prog Reply ε α
  | .exec s k => k (db.exec s σ).1
  | p => p

variable (db) in
/-- The program begins with a statement that writes nothing. -/
def Prog.beginsReading (σ : Store) : Prog Reply ε α → Bool
  | .exec s _ => (db.exec s σ).2.isEmpty
  | _ => false

/-- The first step of a program that begins with a read. -/
theorem Step.first {i : ι} {p : Request Reply ε α} (hq : w.Quiet i)
    (hi : w.session i = .running p []) (hp : p.beginsReading db w.store = true) :
    Step db w (i, .statement) (w.set i (.running (p.afterFirst db w.store) [])) := by
  cases p with
  | ret a => cases hp
  | throw e => cases hp
  | exec s k =>
    have hreads : (db.exec s (db.view w.store [])).2 = [] := List.isEmpty_iff.mp hp
    have hstep : Step db _ _ _ := Step.statement hi (hq.free s)
    rw [hreads] at hstep
    exact hstep

/-- A request comes to its answer while nobody else holds anything. -/
theorem Run.to_answer {i : ι} {p : Request Reply ε α} {a : α} (hq : w.Quiet i)
    (hi : w.session i = .running p []) (hp : p.answer? db w.store = some a) :
    ∃ ls w' w'', Run db w ls w' ∧ Step db w' (i, .answer) w'' ∧ w'.store = w.store ∧
      (w''.session i).answer? = some a ∧ ∀ j, j ≠ i → w''.session j = w.session j := by
  obtain ⟨ls, -, hrun⟩ := Run.body db hq hi
  unfold Prog.answer? at hp
  cases hres : (p.run db w.store []).result with
  | error e => rw [hres] at hp; cases hp
  | ok r =>
    rw [hres] at hp hrun
    obtain rfl : r.1 = a := Option.some.inj hp
    refine ⟨ls, _, _, hrun, Step.answer (World.set_session_self _ _ _), rfl, ?_, ?_⟩
    · rw [World.set_session_self]
      rfl
    · intro j hj
      rw [World.set_session_ne _ hj, World.set_session_ne _ hj]

/-- A request that is served and commits is a run up to its commit. -/
theorem Run.serve_committed {i : ι} {p : Request Reply ε α} {a : α} {δ : List Write}
    (hq : w.Quiet i) (hi : w.session i = .running p [])
    (hp : (p.serve db w.store).2.1 = .committed a δ) :
    ∃ ls, Own i ls ∧ Run db w (ls ++ [(i, .commit)])
      ⟨db.view w.store δ, Function.update w.session i (.committed a δ)⟩ := by
  obtain ⟨ls, hown, hrun⟩ := Run.body db hq hi
  rcases hbody : p.run db w.store [] with ⟨e | ⟨b, exit⟩, δ₁, t⟩
  · simp only [Prog.serve, hbody, reduceCtorEq] at hp
  · rw [hbody] at hrun
    have hans := hrun.snoc (Step.answer (World.set_session_self _ _ _))
    rw [World.set_set] at hans
    obtain ⟨ls', hown', hrun'⟩ := Run.exit db (hq.set _)
      (World.set_session_self w i (.answered b exit δ₁))
    have hboth := hans.trans hrun'
    rw [World.set_set] at hboth
    rcases hexit : exit.run db w.store δ₁ with ⟨e | ⟨⟩, δ₂, t'⟩
    · simp only [Prog.serve, hbody, hexit, reduceCtorEq] at hp
    · simp only [Prog.serve, hbody, hexit, Session.committed.injEq] at hp
      obtain ⟨rfl, rfl⟩ := hp
      simp only [World.set_store, hexit] at hboth
      have hlast := hboth.snoc (Step.commit (World.set_session_self _ _ _))
      refine ⟨_, (hown.append (by simp [Own] : Own i [(i, .answer)])).append hown', ?_⟩
      simpa only [World.set, Function.update_idem] using hlast

variable (db) in
/-- **Serving a request is a run.** -/
theorem Run.serve {i : ι} {p : Request Reply ε α} (hq : w.Quiet i)
    (hi : w.session i = .running p []) :
    ∃ ls, Own i ls ∧ Run db w ls ⟨(p.serve db w.store).1,
      Function.update w.session i (p.serve db w.store).2.1⟩ := by
  obtain ⟨ls, hown, hrun⟩ := Run.body db hq hi
  rcases hp : p.run db w.store [] with ⟨e | ⟨a, exit⟩, δ, t⟩
  · rw [hp] at hrun
    refine ⟨ls ++ [(i, .raise)], hown.append (by simp [Own]), ?_⟩
    have hlast := hrun.snoc (Step.raise (World.set_session_self _ _ _))
    rw [World.set_set] at hlast
    simpa only [Prog.serve, hp, World.set] using hlast
  · rw [hp] at hrun
    rcases hx : exit.run db w.store δ with ⟨e | ⟨⟩, δ', t'⟩
    · have hans := hrun.snoc (Step.answer (World.set_session_self _ _ _))
      rw [World.set_set] at hans
      obtain ⟨ls', hown', hrun'⟩ := Run.exit db (hq.set _)
        (World.set_session_self w i (.answered a exit δ))
      have hboth := hans.trans hrun'
      rw [World.set_set] at hboth
      simp only [World.set_store, hx] at hboth
      have hlast := hboth.snoc (Step.exitRaise (World.set_session_self _ _ _))
      rw [World.set_set] at hlast
      have hown₂ := (hown.append (by simp [Own] : Own i [(i, .answer)])).append hown'
      refine ⟨_, hown₂.append (by simp [Own] : Own i [(i, .raise)]), ?_⟩
      simpa only [Prog.serve, hp, hx, World.set] using hlast
    · have hcommitted : p.serve db w.store = (db.view w.store δ', .committed a δ', t ++ t') := by
        simp only [Prog.serve, hp, hx]
      obtain ⟨ls', hown', hrun'⟩ := Run.serve_committed hq hi (congrArg (fun x => x.2.1) hcommitted)
      rw [hcommitted]
      exact ⟨_, hown'.append (by simp [Own] : Own i [(i, .commit)]), hrun'⟩

/-! ## The undisturbed run, construct by construct -/

section Constructs

variable {β : Type} {p : Prog Reply ε α} {σ : Store} {δ δ' δ'' : List Write} {t t' : List Stmt}

theorem Prog.run_exec {s : Stmt} {k : Reply s → Prog Reply ε α} {r : Except ε α}
    (h : (k (db.exec s (db.view σ δ)).1).run db σ (δ ++ (db.exec s (db.view σ δ)).2) =
      ⟨r, δ', t⟩) : (Prog.exec s k).run db σ δ = ⟨r, δ', s :: t⟩ := by
  rw [Prog.run, h]

theorem Prog.run_bind_ok {f : α → Prog Reply ε β} {a : α} {r : Except ε β}
    (h : p.run db σ δ = ⟨.ok a, δ', t⟩) (hf : (f a).run db σ δ' = ⟨r, δ'', t'⟩) :
    (p.bind f).run db σ δ = ⟨r, δ'', t ++ t'⟩ := by
  rw [Prog.run_bind, h]
  simp only [hf]

theorem Prog.run_bind_error (f : α → Prog Reply ε β) {e : ε}
    (h : p.run db σ δ = ⟨.error e, δ', t⟩) : (p.bind f).run db σ δ = ⟨.error e, δ', t⟩ := by
  rw [Prog.run_bind, h]

theorem Prog.run_catchError_ok (g : ε → Prog Reply ε α) {a : α}
    (h : p.run db σ δ = ⟨.ok a, δ', t⟩) : (p.catchError g).run db σ δ = ⟨.ok a, δ', t⟩ := by
  rw [Prog.run_catchError, h]

theorem Prog.serve_of_run {p : Request Reply ε α} {a : α} {exit : Prog Reply ε Unit}
    (h : p.run db σ [] = ⟨.ok (a, exit), δ, t⟩) (hexit : exit.run db σ δ = ⟨.ok (), δ', t'⟩) :
    p.serve db σ = (db.view σ δ', .committed a δ', t ++ t') := by
  unfold Prog.serve
  dsimp only
  rw [h]
  simp only [hexit]

theorem Prog.serve_of_raise {p : Request Reply ε α} {e : ε}
    (h : p.run db σ [] = ⟨.error e, δ, t⟩) : p.serve db σ = (σ, .failed e, t) := by
  unfold Prog.serve
  dsimp only
  rw [h]

/-- The statements of a request up to its answer and after it. -/
theorem Prog.serve_trace {p : Request Reply ε α} {a : α} {exit : Prog Reply ε Unit}
    (h : p.run db σ [] = ⟨.ok (a, exit), δ, t⟩) :
    (p.serve db σ).2.2 = t ++ (exit.run db σ δ).trace := by
  unfold Prog.serve
  dsimp only
  rw [h]
  dsimp only
  cases (exit.run db σ δ).result <;> rfl

end Constructs

/-- What every result of a program satisfies, the result of an undisturbed run does. -/
theorem Prog.Only.result {S : Stmt → Prop} {P : α → Prop} {p : Prog Reply ε α}
    (hp : p.Only S (fun _ _ => True) P) {σ : Store} {δ : List Write} {a : α}
    (h : (p.run db σ δ).result = .ok a) : P a := by
  induction p generalizing δ with
  | ret b =>
    obtain rfl := Except.ok.inj h
    exact hp
  | throw e => cases h
  | exec s k ih => exact ih _ (hp.2 _ trivial) h

/-- A program that returns after its first statement. -/
theorem Prog.run_exec_ret {s : Stmt} {k : Reply s → Prog Reply ε α} {σ : Store} {δ : List Write}
    {a : α} (h : k (db.exec s (db.view σ δ)).1 = .ret a) :
    (Prog.exec s k).run db σ δ = ⟨.ok a, δ ++ (db.exec s (db.view σ δ)).2, [s]⟩ := by
  rw [Prog.run, h]
  rfl

/-- A request with nothing left to do after its answer is not lost. -/
theorem Prog.Only.serve_ne_lost {S : Stmt → Prop} {P : α × Prog Reply ε Unit → Prop}
    {p : Request Reply ε α} (hp : p.Only S (fun _ _ => True) P) (hP : ∀ q, P q → q.2 = .ret ())
    (σ : Store) (a : α) : (p.serve db σ).2.1 ≠ .lost a := by
  unfold Prog.serve
  dsimp only
  cases hres : (p.run db σ []).result with
  | error e =>
    intro h
    cases h
  | ok q =>
    obtain ⟨b, exit⟩ := q
    obtain rfl : exit = .ret () := hP _ (hp.result hres)
    intro h
    cases h

variable (db) in
/-- A request that was served holds nothing any more. -/
theorem serve_writes (p : Request Reply ε α) (σ : Store) : (p.serve db σ).2.1.writes = [] := by
  unfold Prog.serve
  dsimp only
  split
  · rfl
  · split <;> rfl

variable (db) in
theorem Prog.serve_finished (p : Request Reply ε α) (σ : Store) : (p.serve db σ).2.1.Finished := by
  unfold Prog.serve
  dsimp only
  split
  · exact trivial
  · split <;> exact trivial

variable (db) in
theorem serveAll_finished (ps : List (Request Reply ε α)) (σ : Store) :
    ∀ s ∈ (Transactions.serveAll db ps σ).2.map Prod.fst, s.Finished := by
  induction ps generalizing σ with
  | nil => exact fun s hs => absurd hs List.not_mem_nil
  | cons p ps ih =>
    intro s hs
    rcases List.mem_cons.mp hs with rfl | hs
    · exact p.serve_finished db σ
    · exact ih _ s hs

/-- A session that holds nothing takes the place of another one. -/
theorem World.held_update (hw : ∀ k, w.held k = []) (i : ι) {s : Session Reply Write ε α}
    (hs : s.writes = []) (σ : Store) :
    ∀ k, World.held ⟨σ, Function.update w.session i s⟩ k = [] := by
  intro k
  by_cases hk : k = i
  · subst hk
    simpa [World.held] using hs
  · simpa [World.held, hk] using hw k

variable (db) in
/-- A request is served between the first statement of another one, a read, and its rest. -/
theorem Run.overtake {i j : ι} (hij : i ≠ j) {p q : Request Reply ε α} (hw : ∀ k, w.held k = [])
    (hi : w.session i = .running p []) (hj : w.session j = .running q [])
    (hread : q.beginsReading db w.store = true) :
    ∃ ls w', Run db w ls w' ∧
      w'.store = ((q.afterFirst db w.store).serve db (p.serve db w.store).1).1 ∧
      w'.session i = (p.serve db w.store).2.1 ∧
      w'.session j = ((q.afterFirst db w.store).serve db (p.serve db w.store).1).2.1 ∧
      (∀ k, k ≠ i → k ≠ j → w'.session k = w.session k ∧ ∀ b, (k, b) ∉ ls) ∧
      ∀ k, w'.held k = [] := by
  have hfirst := Run.single (Step.first (fun k _ => hw k) hj hread)
  have hw₁ := World.held_update hw j (s := .running (q.afterFirst db w.store) []) rfl w.store
  obtain ⟨ls, hown, hserve⟩ := Run.serve db (fun k _ => hw₁ k)
    ((World.set_session_ne w hij _).trans hi)
  have hw₂ := World.held_update hw₁ i (serve_writes db p w.store) (p.serve db w.store).1
  obtain ⟨ls', hown', hrest⟩ := Run.serve db (fun k _ => hw₂ k)
    ((Function.update_of_ne hij.symm _ _).trans (World.set_session_self w j _))
  refine ⟨_, _, (hfirst.trans hserve).trans hrest, rfl,
    (Function.update_of_ne hij _ _).trans (Function.update_self _ _ _), Function.update_self _ _ _,
    fun k hki hkj => ⟨?_, fun b hb => ?_⟩, World.held_update hw₂ j (serve_writes db _ _) _⟩
  · exact (Function.update_of_ne hkj _ _).trans
      ((Function.update_of_ne hki _ _).trans (World.set_session_ne w hkj _))
  · rw [List.mem_append, List.mem_append, List.mem_singleton] at hb
    rcases hb with (hb | hb) | hb
    · exact hkj (Prod.mk.inj hb).1
    · exact hki (hown _ hb).1
    · exact hkj (hown' _ hb).1

variable (db) in
/-- **A sequence of requests is a run**: the requests `order` of a quiet world, served one
after the other. -/
theorem Run.serveAll (p : ι → Request Reply ε α) (order : List ι) (hnd : order.Nodup)
    (hq : ∀ i, w.held i = []) (hi : ∀ i ∈ order, w.session i = .running (p i) []) :
    ∃ ls w', Run db w ls w' ∧
      w'.store = (Transactions.serveAll db (order.map p) w.store).1 ∧
      order.map w'.session = (Transactions.serveAll db (order.map p) w.store).2.map Prod.fst ∧
      (∀ i, i ∉ order → w'.session i = w.session i) ∧ (∀ i, w'.held i = []) ∧
      (∀ l ∈ ls, l.2 ≠ .abort ∧ l.2 ≠ .lose) := by
  induction order using List.reverseRecOn with
  | nil => exact ⟨[], _, .nil, rfl, rfl, fun _ _ => rfl, hq, by simp⟩
  | append_singleton order i ih =>
    rw [List.nodup_append] at hnd
    obtain ⟨ls, w', hrun, hstore, hsess, hrest, hheld, hcalm⟩ :=
      ih hnd.1 (fun j hj => hi j (List.mem_append_left _ hj))
    have hni : i ∉ order := fun hm => hnd.2.2 i hm i (by simp) rfl
    have hstart : w'.session i = .running (p i) [] := by rw [hrest i hni, hi i (by simp)]
    obtain ⟨ls', hown, hserve⟩ := Run.serve db (fun j _ => hheld j) hstart
    refine ⟨_, _, hrun.trans hserve, ?_, ?_, ?_, ?_, ?_⟩
    · simp [serveAll_append, Transactions.serveAll, hstore]
    · have hmap : ∀ s, order.map (Function.update w'.session i s) = order.map w'.session := by
        intro s
        refine List.map_congr_left fun j hj => Function.update_of_ne ?_ _ _
        rintro rfl
        exact hni hj
      simp [serveAll_append, Transactions.serveAll, hmap, hsess, hstore]
    · intro j hj
      rw [List.mem_append, not_or] at hj
      have hji : j ≠ i := fun h => hj.2 (by simp [h])
      simpa [hji] using hrest j hj.1
    · exact World.held_update hheld i (serve_writes db (p i) w'.store) _
    · intro l hl
      rcases List.mem_append.mp hl with hl | hl
      · exact hcalm l hl
      · exact (hown l hl).2

end Transactions
