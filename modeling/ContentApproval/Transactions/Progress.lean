import ContentApproval.Transactions.Sequential
import Mathlib.Algebra.BigOperators.Group.Finset.Basic
import Mathlib.Algebra.Order.BigOperators.Group.Finset
import Mathlib.Data.Fintype.BigOperators

/-!
# Every run goes on and ends

A session that nobody keeps waiting has a next step (`Step.exists_of_quiet`). A session
whose program ends after a bounded number of statements has a budget of steps, each
step spends one, and so a run of finitely many sessions is no longer than their budgets
together (`Run.length_le`).
-/

namespace Transactions

variable {Stmt : Type} {Reply : Stmt → Type} {ε α β Store Write ι : Type}
  {db : Database Reply Store Write}

/-! ## Programs that end -/

namespace Prog

theorem Ends.mono {P Q : α → Prop} {p : Prog Reply ε α} {m n : Nat} (h : p.Ends P m)
    (hmn : m ≤ n) (hPQ : ∀ a, P a → Q a) : p.Ends Q n := by
  induction p generalizing m n with
  | ret a =>
    cases n <;> cases m <;> exact hPQ a h
  | throw e =>
    cases n <;> trivial
  | exec s k ih =>
    match m, n, hmn, h with
    | m + 1, n + 1, hmn, h => exact fun r => ih r (h r) (by omega)

theorem Ends.bind {P : α → Prop} {Q : β → Prop} {p : Prog Reply ε α} {f : α → Prog Reply ε β}
    {m n : Nat} (h : p.Ends P m) (hf : ∀ a, P a → (f a).Ends Q n) :
    (p.bind f).Ends Q (m + n) := by
  induction p generalizing m with
  | ret a =>
    have hP : P a := by cases m <;> exact h
    exact (hf a hP).mono (by omega) (fun _ => id)
  | throw e =>
    simp only [Prog.bind]
    cases m + n <;> trivial
  | exec s k ih =>
    cases m with
    | zero => exact h.elim
    | succ m =>
      rw [show m + 1 + n = (m + n) + 1 by omega]
      exact fun r => ih r (h r)

theorem Ends.catchError {P : α → Prop} {p : Prog Reply ε α} {f : ε → Prog Reply ε α} {m n : Nat}
    (h : p.Ends P m) (hf : ∀ e, (f e).Ends P n) : (p.catchError f).Ends P (m + n) := by
  induction p generalizing m with
  | ret a =>
    have hP : P a := by cases m <;> exact h
    simp only [Prog.catchError]
    cases m + n <;> exact hP
  | throw e => exact (hf e).mono (by omega) (fun _ => id)
  | exec s k ih =>
    cases m with
    | zero => exact h.elim
    | succ m =>
      rw [show m + 1 + n = (m + n) + 1 by omega]
      exact fun r => ih r (h r)

end Prog

/-! ## The budget of a session -/

/-- The session ends after at most `n` steps. -/
def Session.Budget : Session Reply Write ε α → Nat → Prop
  | .running p _, n => ∃ k m, p.Ends (fun r => r.2.Ends (fun _ => True) m) k ∧ k + m + 2 ≤ n
  | .answered _ exit _, n => ∃ m, exit.Ends (fun _ => True) m ∧ m + 1 ≤ n
  | _, _ => True

variable [DecidableEq ι] {w w' : World Reply Store Write ε α ι}

/-- A step spends one of the steps its session still has. -/
theorem Step.spends {i : ι} {a : Action} {n : Nat} (h : Step db w (i, a) w')
    (hn : (w.session i).Budget n) : ∃ n', n = n' + 1 ∧ (w'.session i).Budget n' := by
  cases h with
  | @statement _ s k δ hi _ =>
    rw [hi] at hn
    obtain ⟨c, m, hp, hle⟩ := hn
    match c, hp with
    | c + 1, hp =>
      refine ⟨n - 1, by omega, ?_⟩
      rw [World.set_session_self]
      exact ⟨c, m, hp _, by omega⟩
  | @exitStatement _ _ s k δ hi _ =>
    rw [hi] at hn
    obtain ⟨m, hp, hle⟩ := hn
    match m, hp with
    | m + 1, hp =>
      refine ⟨n - 1, by omega, ?_⟩
      rw [World.set_session_self]
      exact ⟨m, hp _, by omega⟩
  | @answer _ a exit δ hi =>
    rw [hi] at hn
    obtain ⟨c, m, hp, hle⟩ := hn
    have hexit : exit.Ends (fun _ => True) m := by cases c <;> exact hp
    refine ⟨n - 1, by omega, ?_⟩
    rw [World.set_session_self]
    exact ⟨m, hexit, by omega⟩
  | raise hi =>
    rw [hi] at hn
    obtain ⟨c, m, -, hle⟩ := hn
    exact ⟨n - 1, by omega, by rw [World.set_session_self]; trivial⟩
  | exitRaise hi =>
    rw [hi] at hn
    obtain ⟨m, -, hle⟩ := hn
    exact ⟨n - 1, by omega, by rw [World.set_session_self]; trivial⟩
  | commit hi =>
    rw [hi] at hn
    obtain ⟨m, -, hle⟩ := hn
    exact ⟨n - 1, by omega, by simp only [Function.update_self]; trivial⟩
  | abort hi =>
    rw [hi] at hn
    obtain ⟨c, m, -, hle⟩ := hn
    exact ⟨n - 1, by omega, by rw [World.set_session_self]; trivial⟩
  | lose hi =>
    rw [hi] at hn
    obtain ⟨m, -, hle⟩ := hn
    exact ⟨n - 1, by omega, by rw [World.set_session_self]; trivial⟩

/-- After a run the sessions have still budgets. -/
theorem Run.budget {ls : List (ι × Action)} {n : ι → Nat} (h : Run db w ls w')
    (hn : ∀ i, (w.session i).Budget (n i)) : ∃ m : ι → Nat, ∀ i, (w'.session i).Budget (m i) := by
  induction h with
  | nil => exact ⟨n, hn⟩
  | @snoc ls l v v' _ hs ih =>
    obtain ⟨m, hm⟩ := ih
    obtain ⟨i, a⟩ := l
    obtain ⟨k, -, hk⟩ := hs.spends (hm i)
    refine ⟨Function.update m i k, fun j => ?_⟩
    by_cases hj : j = i
    · subst hj
      simpa using hk
    · simpa [hj, hs.session_ne hj] using hm j

/-- **Every run ends.** It has at most as many steps as its sessions together may take. -/
theorem Run.length_le [Fintype ι] {ls : List (ι × Action)} {n : ι → Nat}
    (h : Run db w ls w') (hn : ∀ i, (w.session i).Budget (n i)) :
    ls.length ≤ ∑ i, n i := by
  suffices hs : ∃ n' : ι → Nat, (∀ i, (w'.session i).Budget (n' i)) ∧
      ls.length + ∑ i, n' i = ∑ i, n i by
    obtain ⟨n', -, hlen⟩ := hs
    omega
  induction h with
  | nil => exact ⟨n, hn, by simp⟩
  | @snoc ls l v v' _ hs ih =>
    obtain ⟨n', hn', hlen⟩ := ih
    obtain ⟨i, a⟩ := l
    obtain ⟨m, hm, hb⟩ := hs.spends (hn' i)
    refine ⟨Function.update n' i m, fun j => ?_, ?_⟩
    · by_cases hj : j = i
      · subst hj
        simpa using hb
      · simpa [hj, hs.session_ne hj] using hn' j
    · have hsum := Finset.sum_update_of_mem (Finset.mem_univ i) n' m
      have hold := Finset.add_sum_erase Finset.univ n' (Finset.mem_univ i)
      rw [Finset.sdiff_singleton_eq_erase] at hsum
      simp only [List.length_append, List.length_singleton]
      omega

/-- A session that is not finished and waits for nobody has a next step. -/
theorem Step.exists_of_quiet {i : ι} (hq : w.Quiet i) (hi : ¬ (w.session i).Finished) :
    ∃ a w', Step db w (i, a) w' ∧ a ≠ .abort ∧ a ≠ .lose := by
  cases hs : w.session i with
  | running p δ =>
    match p, hs with
    | .ret (a, exit), hs => exact ⟨_, _, Step.answer hs, by simp, by simp⟩
    | .throw e, hs => exact ⟨_, _, Step.raise hs, by simp, by simp⟩
    | .exec s k, hs => exact ⟨_, _, Step.statement hs (hq.free s), by simp, by simp⟩
  | answered a exit δ =>
    match exit, hs with
    | .ret (), hs => exact ⟨_, _, Step.commit hs, by simp, by simp⟩
    | .throw e, hs => exact ⟨_, _, Step.exitRaise hs, by simp, by simp⟩
    | .exec s k, hs => exact ⟨_, _, Step.exitStatement hs (hq.free s), by simp, by simp⟩
  | committed a δ => rw [hs] at hi; exact absurd trivial hi
  | failed e => rw [hs] at hi; exact absurd trivial hi
  | aborted => rw [hs] at hi; exact absurd trivial hi
  | lost a => rw [hs] at hi; exact absurd trivial hi

end Transactions
