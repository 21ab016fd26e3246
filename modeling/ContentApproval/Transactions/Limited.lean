import ContentApproval.Transactions.Exchanges
import ContentApproval.Transactions.Sequential
import Mathlib.Data.List.Forall2

/-!
# Statements that the database refuses

A database may refuse a statement because of a value that it binds. `Prog.limited` is a
program against such a database: it raises where it would send a refused statement. If none
is refused it runs as before (`Prog.serve_limited`), and it keeps the contracts it kept
before (`Contract.Meets.limited`). Every write in the store of a run comes from a statement
that was accepted (`Run.store_keeps`).
-/

namespace Transactions

variable {Stmt : Type} {Reply : Stmt → Type} {ε α β Store Write ι : Type}
  {db : Database Reply Store Write}

/-! ## Programs -/

namespace Prog

variable (ok : Stmt → Prop) [DecidablePred ok] (refused : ε)

/-- The program, with `refused` raised in place of a statement that is not `ok`. -/
def limited : Prog Reply ε α → Prog Reply ε α
  | .ret a => .ret a
  | .throw e => .throw e
  | .exec s k => if ok s then .exec s (fun r => (k r).limited) else .throw refused

/-- A request, with the rest of its transaction after the answer. -/
def limitedRequest (p : Request Reply ε α) : Request Reply ε α :=
  (p.limited ok refused).bind (fun q => .ret (q.1, q.2.limited ok refused))

variable {ok refused}

/-- A handler that hands the refusal on does not see it. -/
theorem limited_catchError {p : Prog Reply ε α} {f : ε → Prog Reply ε α}
    (hf : f refused = .throw refused) : (p.catchError f).limited ok refused =
      (p.limited ok refused).catchError (fun e => (f e).limited ok refused) := by
  induction p with
  | ret a => rfl
  | throw e => rfl
  | exec s k ih =>
    simp only [catchError, limited]
    split_ifs with hs
    · simp only [catchError, ih]
    · simp only [catchError, hf, limited]

/-- A program that sends no refused statement. -/
theorem run_limited {p : Prog Reply ε α} {σ : Store} {δ : List Write}
    (h : ∀ s ∈ (p.run db σ δ).trace, ok s) : (p.limited ok refused).run db σ δ = p.run db σ δ := by
  induction p generalizing δ with
  | ret a => rfl
  | throw e => rfl
  | exec s k ih =>
    obtain ⟨hs, hrest⟩ := List.forall_mem_cons.mp h
    rw [limited, if_pos hs, run, run]
    simp only [ih _ hrest]

/-- A program that would send a refused statement raises there. -/
theorem run_limited_refused {p : Prog Reply ε α} {σ : Store} {δ : List Write}
    (h : ¬ ∀ s ∈ (p.run db σ δ).trace, ok s) :
    ((p.limited ok refused).run db σ δ).result = .error refused := by
  induction p generalizing δ with
  | ret a => exact absurd (fun _ hs => absurd hs List.not_mem_nil) h
  | throw e => exact absurd (fun _ hs => absurd hs List.not_mem_nil) h
  | exec s k ih =>
    rw [limited]
    split_ifs with hs
    · exact ih _ fun hrest => h (List.forall_mem_cons.mpr ⟨hs, hrest⟩)
    · rfl

/-- The answer of a request that sends no refused statement before it. -/
theorem run_limitedRequest {p : Request Reply ε α} {σ : Store} {a : α} {exit : Prog Reply ε Unit}
    {δ : List Write} {t : List Stmt} (hp : p.run db σ [] = ⟨.ok (a, exit), δ, t⟩)
    (h : ∀ s ∈ t, ok s) : (p.limitedRequest ok refused).run db σ [] =
      ⟨.ok (a, exit.limited ok refused), δ, t⟩ := by
  have hbody : (p.limited ok refused).run db σ [] = ⟨.ok (a, exit), δ, t⟩ := by
    rw [run_limited (by rw [hp]; exact h), hp]
  have hrun := run_bind_ok hbody (f := fun q => .ret (q.1, q.2.limited ok refused)) rfl
  rwa [List.append_nil] at hrun

/-- A request that sends no refused statement. -/
theorem serve_limited {p : Request Reply ε α} {σ : Store} (h : ∀ s ∈ (p.serve db σ).2.2, ok s) :
    (p.limitedRequest ok refused).serve db σ = p.serve db σ := by
  rcases hp : p.run db σ [] with ⟨e | ⟨a, exit⟩, δ, t⟩
  · have hserve : p.serve db σ = (σ, .failed e, t) := serve_of_raise hp
    rw [hserve] at h ⊢
    have hlimited : (p.limited ok refused).run db σ [] = ⟨.error e, δ, t⟩ := by
      rw [run_limited (by rw [hp]; exact h), hp]
    exact serve_of_raise (run_bind_error _ hlimited)
  · rw [serve_trace hp, List.forall_mem_append] at h
    have hexit : (exit.limited ok refused).run db σ δ = exit.run db σ δ := run_limited h.2
    unfold serve
    dsimp only
    rw [run_limitedRequest hp h.1, hp]
    dsimp only
    rw [hexit]

/-- A request that would send a refused statement fails, or is lost after its answer. -/
theorem serve_limited_refused {p : Request Reply ε α} {σ : Store}
    (h : ¬ ∀ s ∈ (p.serve db σ).2.2, ok s) :
    ((p.limitedRequest ok refused).serve db σ).2.1 = .failed refused ∨
      ∃ a, ((p.limitedRequest ok refused).serve db σ).2.1 = .lost a := by
  by_cases hbody : ∀ s ∈ (p.run db σ []).trace, ok s
  · rcases hp : p.run db σ [] with ⟨e | ⟨a, exit⟩, δ, t⟩
    · rw [serve_of_raise hp] at h
      rw [hp] at hbody
      exact absurd hbody h
    · rw [serve_trace hp, List.forall_mem_append] at h
      rw [hp] at hbody
      have hexit : ((exit.limited ok refused).run db σ δ).result = .error refused :=
        run_limited_refused fun hexit => h ⟨hbody, hexit⟩
      refine Or.inr ⟨a, ?_⟩
      unfold serve
      dsimp only
      rw [run_limitedRequest hp hbody]
      dsimp only
      rw [hexit]
  · have hresult : ((p.limited ok refused).run db σ []).result = .error refused :=
      run_limited_refused hbody
    rcases hlimited : (p.limited ok refused).run db σ [] with ⟨r, δ, t⟩
    rw [hlimited] at hresult
    obtain rfl : r = .error refused := hresult
    refine Or.inl ?_
    rw [limitedRequest, serve_of_raise (run_bind_error _ hlimited)]

theorem limited_told (p : Prog Reply ε α) (h : List (Exchange Reply)) :
    (p.limited ok refused).Told (fun _ s => ok s) (fun _ _ => True) h := by
  induction p generalizing h with
  | ret a => trivial
  | throw e => trivial
  | exec s k ih =>
    rw [limited]
    split_ifs with hs
    · exact ⟨hs, fun r => ih r _⟩
    · trivial

/-- Such a request sends only statements that are accepted. -/
theorem limitedRequest_told (p : Request Reply ε α) (h : List (Exchange Reply)) :
    (p.limitedRequest ok refused).Told (fun _ s => ok s)
      (fun h r => True ∧ r.2.Told (fun _ s => ok s) (fun _ _ => True) h) h :=
  (p.limited_told h).bind fun h' q _ => ⟨trivial, q.2.limited_told h'⟩

end Prog

/-! ## Contracts -/

section Contracts

variable {ok : Stmt → Prop} [DecidablePred ok] {refused : ε} {D : Discipline db}

theorem Wp.limited {J : List Write → Store → Prop} {p : Prog Reply ε α}
    {Q : Except ε α → List Write → Store → Prop} {δ : List Write} {σ : Store} (h : Wp D J p Q δ σ)
    (hQ : ∀ δ' σ', Found D J δ' σ' σ' → Q (.error refused) δ' σ') :
    Wp D J (p.limited ok refused) Q δ σ := by
  induction p generalizing δ σ with
  | ret a => exact h
  | throw e => exact h
  | exec s k ih =>
    rw [Prog.limited]
    split_ifs with hs
    · exact fun σ' hf => ⟨(h σ' hf).1, ih _ (h σ' hf).2⟩
    · exact fun σ' hf => hQ δ σ' ⟨.refl _ _, hf.inv, hf.held, hf.during⟩

/-- **A contract is kept against such a database** if it allows the refusal. -/
theorem Contract.Meets.limited {C : Contract D ε α} {p : Request Reply ε α} (h : C.Meets p)
    (hfailed : ∀ σ, D.Inv σ → C.Failed refused σ) : C.Meets (p.limitedRequest ok refused) := by
  refine ⟨h.during, fun σ hσ => Wp.bind ?_⟩
  refine ((h.wp σ hσ).limited fun δ' σ' hf => hfailed σ' hf.inv).mono fun r δ' σ' _ _ _ hr => ?_
  cases r with
  | error e => exact hr
  | ok q =>
    obtain ⟨hanswered, hexit⟩ := hr
    intro σ'' hf
    refine ⟨hf.env.keeps hanswered fun hstep h => C.answered_env h hstep, ?_⟩
    exact (hexit.limited fun _ _ _ => trivial).env hf.env

end Contracts

/-! ## Runs -/

section Runs

variable [DecidableEq ι] {ok : Stmt → Prop} [DecidablePred ok] {refused : ε}
  {p : ι → Request Reply ε α} {w : World Reply Store Write ε α ι} {ls : List (ι × Action)}

omit [DecidableEq ι] in
/-- What every write keeps, a list of writes keeps. -/
theorem Database.view_keeps {P : Store → Prop} {δ : List Write} {σ : Store}
    (hP : ∀ x ∈ δ, ∀ σ', P σ' → P (db.apply σ' x)) (h : P σ) : P (db.view σ δ) := by
  induction δ generalizing σ with
  | nil => exact h
  | cons x δ ih =>
    exact ih (fun y hy => hP y (List.mem_cons_of_mem _ hy)) (hP x List.mem_cons_self σ h)

/-- **What every write of an accepted statement keeps, holds of the store of every run.** -/
theorem Run.store_keeps {P : Store → Prop} {σ : Store} (h₀ : P σ)
    (hP : ∀ s σ' x σ'', ok s → x ∈ (db.exec s σ').2 → P σ'' → P (db.apply σ'' x))
    (h : Run db (World.start σ (fun i => (p i).limitedRequest ok refused)) ls w) : P w.store := by
  obtain ⟨commits, hh⟩ := h.history
  have hwrites : ∀ x ∈ commits.flatMap Prod.snd, ∃ s σ', ok s ∧ x ∈ (db.exec s σ').2 := by
    intro x hx
    obtain ⟨⟨j, δ⟩, hmem, hx⟩ := List.mem_flatMap.mp hx
    obtain ⟨a, hj⟩ := (hh.session j δ).mp hmem
    obtain ⟨n, y, v, htook, hy⟩ := h.made (i := j) rfl x (by rw [hj]; exact hx)
    obtain ⟨hs, -, htold⟩ := htook.before.told (i := j) (A := fun _ _ => True)
      ((p j).limitedRequest_told [])
    exact ⟨_, _, htold.sends htook.sends, hy⟩
  rw [hh.store]
  refine Database.view_keeps (fun x hx σ' hσ' => ?_) h₀
  obtain ⟨s, σ₁, hs, hmem⟩ := hwrites x hx
  exact hP s σ₁ x σ' hs hmem hσ'

end Runs

/-! ## Refusals as rollbacks from outside -/

theorem Prog.limitedRequest_exec (ok : Stmt → Prop) [DecidablePred ok] (refused : ε) (s : Stmt)
    (k : Reply s → Request Reply ε α) : limitedRequest ok refused (.exec s k) =
      if ok s then .exec s (fun r => (k r).limitedRequest ok refused) else .throw refused := by
  unfold limitedRequest
  rw [limited]
  split_ifs <;> rfl

/-- For some replies the program sends such a statement. -/
def Prog.MaySend (S : Stmt → Prop) : Prog Reply ε α → Prop
  | .ret _ => False
  | .throw _ => False
  | .exec s k => S s ∨ ∃ r, (k r).MaySend S

/-- For some replies the request sends a statement that is not `ok`, before its answer or after
it. -/
def Prog.Refusable (ok : Stmt → Prop) (p : Request Reply ε α) : Prop :=
  (p.bind Prod.snd).MaySend (fun s => ¬ ok s)

/-- The session against a database that refuses statements, and the same one against a database
that does not: there it is rolled back from outside where it is refused here. Only a request that
is `refusable` is refused. -/
def Session.Limits (ok : Stmt → Prop) [DecidablePred ok] (refused : ε) (refusable : Prop)
    (s : Session Reply Write ε α) : Session Reply Write ε α → Prop
  | .running p δ => s = .running (p.limitedRequest ok refused) δ ∧ (p.Refusable ok → refusable)
  | .answered a exit δ => s = .answered a (exit.limited ok refused) δ ∧
    (exit.MaySend (fun s => ¬ ok s) → refusable)
  | .committed a δ => s = .committed a δ
  | .failed e => s = .failed e
  | .aborted => s = .aborted ∨ s = .failed refused ∧ refusable
  | .lost a => s = .lost a

/-- The store is the same, and so are the sessions. -/
structure World.Limits (ok : Stmt → Prop) [DecidablePred ok] (refused : ε) (refusable : ι → Prop)
    (w u : World Reply Store Write ε α ι) : Prop where
  store : w.store = u.store
  session : ∀ i, (w.session i).Limits ok refused (refusable i) (u.session i)

/-- The step of the one world and that of the other, each with its session. -/
def Action.Limits (refusable : ι → Prop) (l l' : ι × Action) : Prop :=
  l'.1 = l.1 ∧ (l'.2 = l.2 ∨ l.2 = .raise ∧ (l'.2 = .abort ∨ l'.2 = .lose) ∧ refusable l.1)

section Labels

variable {refusable : ι → Prop} {i : ι} {ls ls' : List (ι × Action)}

/-- A session that takes no step takes none there. -/
theorem not_mem_of_limits
    (h : List.Forall₂ (Action.Limits refusable) ls ls')
    (hi : ∀ b, (i, b) ∉ ls) : ∀ b, (i, b) ∉ ls' := by
  induction h with
  | nil => exact fun _ => List.not_mem_nil
  | @cons l l' _ _ hl _ ih =>
    intro b hb
    rcases List.mem_cons.mp hb with rfl | hb
    · obtain ⟨j, b'⟩ := l
      obtain rfl : i = j := hl.1
      exact hi b' List.mem_cons_self
    · exact ih (fun b' hb' => hi b' (List.mem_cons_of_mem _ hb')) b hb

/-- A session that is lost there was lost, or was refused after its answer. -/
theorem lose_of_limits
    (h : List.Forall₂ (Action.Limits refusable) ls ls')
    (hi : (i, .lose) ∈ ls') : (i, .lose) ∈ ls ∨ (i, .raise) ∈ ls ∧ refusable i := by
  induction h with
  | nil => cases hi
  | @cons l l' _ _ hl _ ih =>
    obtain ⟨j, b⟩ := l
    rcases List.mem_cons.mp hi with rfl | hi
    · obtain ⟨rfl, hb | ⟨rfl, -, hx⟩⟩ := hl
      · exact Or.inl (by rw [show Action.lose = b from hb]; exact List.mem_cons_self)
      · exact Or.inr ⟨List.mem_cons_self, hx⟩
    · exact (ih hi).imp (List.mem_cons_of_mem _) (And.imp_left (List.mem_cons_of_mem _))

end Labels

section Unlimited

variable {ok : Stmt → Prop} [DecidablePred ok] {refused : ε} {s t : Session Reply Write ε α}

namespace Session.Limits

variable {refusable : Prop}

theorem writes (h : s.Limits ok refused refusable t) : s.writes = t.writes := by
  cases t with
  | running p δ => obtain ⟨rfl, -⟩ := h; rfl
  | answered a exit δ => obtain ⟨rfl, -⟩ := h; rfl
  | aborted => obtain rfl | ⟨rfl, -⟩ := h <;> rfl
  | _ => obtain rfl := h; rfl

theorem running {q : Request Reply ε α} {δ : List Write}
    (h : Limits ok refused refusable (.running q δ) t) : ∃ p, t = .running p δ ∧
      p.limitedRequest ok refused = q ∧ (p.Refusable ok → refusable) := by
  cases t with
  | running p δ' =>
    obtain ⟨h, hrefusable⟩ := h
    obtain ⟨rfl, rfl⟩ := Session.running.inj h
    exact ⟨p, rfl, rfl, hrefusable⟩
  | answered b exit δ' => cases h.1
  | aborted => obtain h | ⟨h, -⟩ := h <;> cases h
  | _ => cases h

theorem answered {a : α} {q : Prog Reply ε Unit} {δ : List Write}
    (h : Limits ok refused refusable (.answered a q δ) t) : ∃ exit, t = .answered a exit δ ∧
      exit.limited ok refused = q ∧ (exit.MaySend (fun s => ¬ ok s) → refusable) := by
  cases t with
  | running p δ' => cases h.1
  | answered b exit δ' =>
    obtain ⟨h, hrefusable⟩ := h
    obtain ⟨rfl, rfl, rfl⟩ := Session.answered.inj h
    exact ⟨exit, rfl, rfl, hrefusable⟩
  | aborted => obtain h | ⟨h, -⟩ := h <;> cases h
  | _ => cases h

theorem committed_iff {a : α} {δ : List Write} (h : s.Limits ok refused refusable t) :
    s = .committed a δ ↔ t = .committed a δ := by
  cases t with
  | running p δ' =>
    obtain ⟨rfl, -⟩ := h
    exact iff_of_false nofun nofun
  | answered b exit δ' =>
    obtain ⟨rfl, -⟩ := h
    exact iff_of_false nofun nofun
  | aborted => obtain rfl | ⟨rfl, -⟩ := h <;> exact iff_of_false nofun nofun
  | committed b δ' =>
    obtain rfl := h
    exact Iff.rfl
  | _ =>
    obtain rfl := h
    exact iff_of_false nofun nofun

/-- A session that has failed has failed there with the same exception, unless it was refused. -/
theorem failed {e : ε} (h : s.Limits ok refused refusable t) (hs : s = .failed e) :
    t = .failed e ∨ e = refused ∧ refusable := by
  cases t with
  | running p δ => cases hs.symm.trans h.1
  | answered b exit δ => cases hs.symm.trans h.1
  | aborted =>
    obtain h | ⟨h, hrefusable⟩ := h
    · cases hs.symm.trans h
    · exact Or.inr ⟨Session.failed.inj (hs.symm.trans h), hrefusable⟩
  | failed e' => exact Or.inl (h.symm.trans hs)
  | _ => cases hs.symm.trans h

theorem lost {a : α} (h : s.Limits ok refused refusable t) (hs : s = .lost a) : t = .lost a := by
  cases t with
  | running p δ => cases hs.symm.trans h.1
  | answered b exit δ => cases hs.symm.trans h.1
  | aborted => obtain h | ⟨h, -⟩ := h <;> cases hs.symm.trans h
  | lost b => exact h.symm.trans hs
  | _ => cases hs.symm.trans h

end Session.Limits

variable {refusable : ι → Prop} {w w' u : World Reply Store Write ε α ι} {i : ι} {b : Action}
  {ls : List (ι × Action)}

theorem World.Limits.start (σ : Store) (p : ι → Request Reply ε α) :
    (World.start σ (fun i => (p i).limitedRequest ok refused) : World Reply Store Write ε α ι).Limits
      ok refused (fun i => (p i).Refusable ok) (World.start σ p) :=
  ⟨rfl, fun _ => ⟨rfl, id⟩⟩

theorem World.Limits.free (hu : w.Limits ok refused refusable u) {x : Stmt}
    (hfree : ∀ j, j ≠ i → ∀ y ∈ w.held j, ¬ db.Waits x y) :
    ∀ j, j ≠ i → ∀ y ∈ u.held j, ¬ db.Waits x y := by
  intro j hj y hy
  rw [World.held, ← (hu.session j).writes] at hy
  exact hfree j hj y hy

variable [DecidableEq ι]

theorem World.Limits.set (hu : w.Limits ok refused refusable u)
    (hs : s.Limits ok refused (refusable i) t) :
    (w.set i s).Limits ok refused refusable (u.set i t) := by
  refine ⟨hu.store, fun j => ?_⟩
  by_cases hj : j = i
  · subst hj
    rwa [World.set_session_self, World.set_session_self]
  · rw [World.set_session_ne _ hj, World.set_session_ne _ hj]
    exact hu.session j

/-- A step is the same one, or a rollback from outside. -/
theorem Step.unlimited (h : Step db w (i, b) w') (hu : w.Limits ok refused refusable u) :
    ∃ b' u', Step db u (i, b') u' ∧ w'.Limits ok refused refusable u' ∧
      Action.Limits refusable (i, b) (i, b') := by
  have hi := hu.session i
  cases h with
  | statement hw hfree =>
    rw [hw] at hi
    obtain ⟨p, ht, hp, hrefusable⟩ := hi.running
    cases p with
    | exec x k =>
      rw [Prog.limitedRequest_exec] at hp
      split_ifs at hp
      cases hp
      refine ⟨_, _, .statement ht (hu.free hfree), ?_, ⟨rfl, Or.inl rfl⟩⟩
      rw [hu.store]
      exact hu.set ⟨rfl, fun h => hrefusable (Or.inr ⟨_, h⟩)⟩
    | _ => cases hp
  | exitStatement hw hfree =>
    rw [hw] at hi
    obtain ⟨exit, ht, hexit, hrefusable⟩ := hi.answered
    cases exit with
    | exec x k =>
      rw [Prog.limited] at hexit
      split_ifs at hexit
      cases hexit
      refine ⟨_, _, .exitStatement ht (hu.free hfree), ?_, ⟨rfl, Or.inl rfl⟩⟩
      rw [hu.store]
      exact hu.set ⟨rfl, fun h => hrefusable (Or.inr ⟨_, h⟩)⟩
    | _ => cases hexit
  | answer hw =>
    rw [hw] at hi
    obtain ⟨p, ht, hp, hrefusable⟩ := hi.running
    cases p with
    | ret q =>
      cases hp
      exact ⟨_, _, .answer ht, hu.set ⟨rfl, hrefusable⟩, ⟨rfl, Or.inl rfl⟩⟩
    | throw e => cases hp
    | exec x k =>
      rw [Prog.limitedRequest_exec] at hp
      split_ifs at hp
  | raise hw =>
    rw [hw] at hi
    obtain ⟨p, ht, hp, hrefusable⟩ := hi.running
    cases p with
    | ret q => cases hp
    | throw e =>
      cases hp
      exact ⟨_, _, .raise ht, hu.set rfl, ⟨rfl, Or.inl rfl⟩⟩
    | exec x k =>
      -- The statement is refused here and rolled back from outside there.
      rw [Prog.limitedRequest_exec] at hp
      split_ifs at hp with hx
      cases hp
      have hi' := hrefusable (Or.inl hx)
      exact ⟨_, _, .abort ht, hu.set (Or.inr ⟨rfl, hi'⟩), ⟨rfl, Or.inr ⟨rfl, Or.inl rfl, hi'⟩⟩⟩
  | exitRaise hw =>
    rw [hw] at hi
    obtain ⟨exit, ht, hexit, hrefusable⟩ := hi.answered
    cases exit with
    | ret q => cases hexit
    | throw e => exact ⟨_, _, .exitRaise ht, hu.set rfl, ⟨rfl, Or.inl rfl⟩⟩
    | exec x k =>
      rw [Prog.limited] at hexit
      split_ifs at hexit with hx
      exact ⟨_, _, .lose ht, hu.set rfl,
        ⟨rfl, Or.inr ⟨rfl, Or.inr rfl, hrefusable (Or.inl hx)⟩⟩⟩
  | @commit _ a δ hw =>
    rw [hw] at hi
    obtain ⟨exit, ht, hexit, -⟩ := hi.answered
    cases exit with
    | ret q =>
      refine ⟨_, _, .commit ht, ⟨by rw [hu.store], ?_⟩, ⟨rfl, Or.inl rfl⟩⟩
      exact (hu.set (t := .committed a δ) rfl).session
    | throw e => cases hexit
    | exec x k =>
      rw [Prog.limited] at hexit
      split_ifs at hexit
  | abort hw =>
    rw [hw] at hi
    obtain ⟨p, ht, -⟩ := hi.running
    exact ⟨_, _, .abort ht, hu.set (Or.inl rfl), ⟨rfl, Or.inl rfl⟩⟩
  | lose hw =>
    rw [hw] at hi
    obtain ⟨exit, ht, -⟩ := hi.answered
    exact ⟨_, _, .lose ht, hu.set rfl, ⟨rfl, Or.inl rfl⟩⟩

/-- **A run against a database that refuses statements is one against a database that does not**, in
which the refused sessions are rolled back from outside. -/
theorem Run.unlimited (h : Run db w ls w') (hu : w.Limits ok refused refusable u) :
    ∃ ls' u', Run db u ls' u' ∧ w'.Limits ok refused refusable u' ∧
      List.Forall₂ (Action.Limits refusable) ls ls' := by
  induction h with
  | nil => exact ⟨[], u, .nil, hu, .nil⟩
  | @snoc ls l _ _ _ hs ih =>
    obtain ⟨ls', u', hrun, hu', hlabels⟩ := ih
    obtain ⟨b', u'', hs', hu'', hlabel⟩ := Step.unlimited (i := l.1) (b := l.2) hs hu'
    exact ⟨_, u'', hrun.snoc hs', hu'', List.rel_append hlabels (.cons hlabel .nil)⟩

end Unlimited

/-! ## A database that refuses nothing -/

section All

variable {ok : Stmt → Prop} [DecidablePred ok] {refused : ε} (h : ∀ s, ok s)

include h

theorem Prog.limited_eq (p : Prog Reply ε α) : p.limited ok refused = p := by
  induction p with
  | ret a => rfl
  | throw e => rfl
  | exec s k ih =>
    rw [limited, if_pos (h s)]
    exact congrArg (Prog.exec s) (funext ih)

theorem Prog.limitedRequest_eq (p : Request Reply ε α) : p.limitedRequest ok refused = p := by
  unfold limitedRequest
  simp only [limited_eq h]
  exact bind_ret p

omit [DecidablePred ok] in
theorem Prog.not_refusable (p : Request Reply ε α) : ¬ p.Refusable ok := by
  unfold Refusable
  generalize p.bind Prod.snd = q
  induction q with
  | ret a => exact id
  | throw e => exact id
  | exec s k ih => exact fun hq => hq.elim (fun hs => hs (h s)) fun ⟨r, hr⟩ => ih r hr

end All

end Transactions
