import ContentApproval.Transactions.Exchanges
import ContentApproval.Transactions.Progress
import Mathlib.Order.RelClasses

/-!
# Waiting in order

A session waits for another one if its next statement waits for a write that the other
holds (`World.WaitsFor`). A `LockOrder` ranks the writes and says which statements a
transaction may send with the writes that it holds: what it waits for then ranks above
everything it holds itself.

* `World.Ordered.wellFounded`: sessions that keep a lock order never wait in a circle.
* `World.Ordered.exists_step`: behind every session that is not finished there is one
  that can go on.
* `World.Ordered.complete`: finitely many sessions with a budget of steps can always be
  brought to their ends, without a rollback from outside.
-/

namespace Transactions

variable {Stmt : Type} {Reply : Stmt → Type} {ε α β Store Write ι : Type}
  {db : Database Reply Store Write}

/-! ## What a program holds when it sends a statement -/

variable (db) in
/-- Starting with the writes `δ`, the program sends only what `Φ` allows with the writes that
it then holds, and returns only what `P` allows. -/
def Prog.Holding (Φ : List Write → Stmt → Prop) (P : List Write → α → Prop) :
    Prog Reply ε α → List Write → Prop
  | .ret a, δ => P δ a
  | .throw _, _ => True
  | .exec s k, δ => Φ δ s ∧ ∀ σ, (k (db.exec s σ).1).Holding Φ P (δ ++ (db.exec s σ).2)

namespace Prog.Holding

variable {Φ : List Write → Stmt → Prop} {δ : List Write}

theorem mono {P Q : List Write → α → Prop} {p : Prog Reply ε α} (h : p.Holding db Φ P δ)
    (hPQ : ∀ δ' a, P δ' a → Q δ' a) : p.Holding db Φ Q δ := by
  induction p generalizing δ with
  | ret a => exact hPQ δ a h
  | throw e => trivial
  | exec s k ih => exact ⟨h.1, fun σ => ih _ (h.2 σ)⟩

theorem bind {P : List Write → α → Prop} {Q : List Write → β → Prop} {p : Prog Reply ε α}
    {f : α → Prog Reply ε β} (h : p.Holding db Φ P δ)
    (hf : ∀ δ' a, P δ' a → (f a).Holding db Φ Q δ') : (p.bind f).Holding db Φ Q δ := by
  induction p generalizing δ with
  | ret a => exact hf δ a h
  | throw e => trivial
  | exec s k ih => exact ⟨h.1, fun σ => ih _ (h.2 σ)⟩

theorem catchError {P : List Write → α → Prop} {p : Prog Reply ε α} {f : ε → Prog Reply ε α}
    (h : p.Holding db Φ P δ) (hf : ∀ δ' e, (f e).Holding db Φ P δ') :
    (p.catchError f).Holding db Φ P δ := by
  induction p generalizing δ with
  | ret a => exact h
  | throw e => exact hf δ e
  | exec s k ih => exact ⟨h.1, fun σ => ih _ (h.2 σ)⟩

/-- A statement that writes nothing. -/
theorem silent {P : List Write → α → Prop} {s : Stmt} {k : Reply s → Prog Reply ε α}
    (hs : ∀ σ, (db.exec s σ).2 = []) (hΦ : Φ δ s) (hk : ∀ r, (k r).Holding db Φ P δ) :
    (Prog.exec s k).Holding db Φ P δ := by
  refine ⟨hΦ, fun σ => ?_⟩
  rw [hs, List.append_nil]
  exact hk _

/-- A program that writes nothing. -/
theorem of_only {S : Stmt → Prop} {P : α → Prop} {p : Prog Reply ε α}
    (h : p.Only S (fun _ _ => True) P) (hS : ∀ s, S s → ∀ σ, (db.exec s σ).2 = [])
    (hΦ : ∀ s, S s → Φ δ s) : p.Holding db Φ (fun δ' a => δ' = δ ∧ P a) δ := by
  induction p with
  | ret a => exact ⟨rfl, h⟩
  | throw e => trivial
  | exec s k ih => exact silent (hS s h.1) (hΦ s h.1) fun r => ih r (h.2 r trivial)

end Prog.Holding

/-- The rest of the program of a session sends only what `Φ` allows. -/
def Session.Holding (db : Database Reply Store Write) (Φ : List Write → Stmt → Prop) :
    Session Reply Write ε α → Prop
  | .running p δ => p.Holding db Φ (fun δ r => r.2.Holding db Φ (fun _ _ => True) δ) δ
  | .answered _ exit δ => exit.Holding db Φ (fun _ _ => True) δ
  | _ => True

/-! ## Waiting -/

/-- Session `i` can not send its next statement before `j` has ended, which holds `x`. -/
structure World.WaitsOn (db : Database Reply Store Write) (w : World Reply Store Write ε α ι)
    (i j : ι) (x : Write) : Prop where
  ne : i ≠ j
  held : x ∈ w.held j
  waits : ∃ s, w.Sends i s ∧ db.Waits s x

def World.WaitsFor (db : Database Reply Store Write) (w : World Reply Store Write ε α ι)
    (i j : ι) : Prop := ∃ x, w.WaitsOn db i j x

section Waiting

variable {w w' : World Reply Store Write ε α ι} {i j k : ι}

/-- Whoever is waited for is not finished. -/
theorem World.WaitsFor.unfinished (h : w.WaitsFor db i j) : ¬ (w.session j).Finished := by
  obtain ⟨x, hx⟩ := h
  have hmem := hx.held
  intro hfin
  unfold World.held at hmem
  cases hs : w.session j with
  | running p δ => rw [hs] at hfin; exact hfin
  | answered a exit δ => rw [hs] at hfin; exact hfin
  | _ => rw [hs] at hmem; cases hmem

variable [DecidableEq ι]

/-- A session that waits for nobody and is not finished has a next step. -/
theorem Step.exists_of_free (hfree : ∀ j, ¬ w.WaitsFor db i j) (hi : ¬ (w.session i).Finished) :
    ∃ a w', Step db w (i, a) w' ∧ a ≠ .abort ∧ a ≠ .lose := by
  have hsend : ∀ s, w.Sends i s → ∀ j, j ≠ i → ∀ x ∈ w.held j, ¬ db.Waits s x :=
    fun s hs j hj x hx hw => hfree j ⟨x, Ne.symm hj, hx, s, hs, hw⟩
  cases hs : w.session i with
  | running p δ =>
    match p, hs with
    | .ret (a, exit), hs => exact ⟨_, _, Step.answer hs, by simp, by simp⟩
    | .throw e, hs => exact ⟨_, _, Step.raise hs, by simp, by simp⟩
    | .exec s k, hs =>
      exact ⟨_, _, Step.statement hs (hsend s (Or.inl ⟨k, δ, hs⟩)), by simp, by simp⟩
  | answered a exit δ =>
    match exit, hs with
    | .ret (), hs => exact ⟨_, _, Step.commit hs, by simp, by simp⟩
    | .throw e, hs => exact ⟨_, _, Step.exitRaise hs, by simp, by simp⟩
    | .exec s k, hs =>
      exact ⟨_, _, Step.exitStatement hs (hsend s (Or.inr ⟨a, k, δ, hs⟩)), by simp, by simp⟩
  | _ => rw [hs] at hi; exact absurd trivial hi

/-- If nobody waits in a circle, then at the end of every chain of waiting sessions there is
one that can go on. -/
theorem Step.exists_of_wellFounded (hwf : WellFounded (fun j i => w.WaitsFor db i j))
    (hi : ¬ (w.session i).Finished) : ∃ j, Relation.ReflTransGen (w.WaitsFor db) i j ∧
      ∃ a w', Step db w (j, a) w' ∧ a ≠ .abort ∧ a ≠ .lose := by
  induction i using hwf.induction with
  | _ i ih =>
    by_cases hfree : ∀ j, ¬ w.WaitsFor db i j
    · exact ⟨i, .refl, Step.exists_of_free hfree hi⟩
    · push Not at hfree
      obtain ⟨j, hj⟩ := hfree
      obtain ⟨k, hk, hstep⟩ := ih j hj hj.unfinished
      exact ⟨k, .head hj hk, hstep⟩

theorem Step.holding {Φ : List Write → Stmt → Prop} {l : ι × Action} (h : Step db w l w')
    (hi : (w.session i).Holding db Φ) : (w'.session i).Holding db Φ := by
  obtain ⟨j, b⟩ := l
  by_cases hij : i = j
  · subst hij
    cases h with
    | statement hs free =>
      rw [hs] at hi
      rw [World.set_session_self]
      exact hi.2 _
    | exitStatement hs free =>
      rw [hs] at hi
      rw [World.set_session_self]
      exact hi.2 _
    | answer hs =>
      rw [hs] at hi
      rw [World.set_session_self]
      exact hi
    | commit hs => simp only [Function.update_self, Session.Holding]
    | _ => rw [World.set_session_self]; trivial
  · rw [h.session_ne hij]
    exact hi

end Waiting

/-! ## Lock orders -/

/-- A rank for each write, and what a transaction may send with the writes that it holds. -/
structure LockOrder (db : Database Reply Store Write) where
  rank : Write → Nat
  top : Nat
  rank_le : ∀ x, rank x ≤ top
  May : List Write → Stmt → Prop
  /-- What is true of the writes that a transaction holds. -/
  Closed : List Write → Prop
  closed_nil : Closed []
  closed_exec : ∀ {δ s σ}, Closed δ → May δ s → Closed (δ ++ (db.exec s σ).2)
  /-- What a transaction waits for ranks above everything that it holds. -/
  climbs : ∀ {δ δ' s x}, May δ s → db.Waits s x → Closed δ' → x ∈ δ' → db.Apart δ δ' →
    ∀ y ∈ δ, rank y < rank x

variable {L : LockOrder db} {w w' : World Reply Store Write ε α ι}

/-- Every session keeps the lock order. -/
structure World.Ordered (L : LockOrder db) (w : World Reply Store Write ε α ι) : Prop where
  apart : w.Apart db
  closed : ∀ i, L.Closed (w.held i)
  holding : ∀ i, (w.session i).Holding db L.May

namespace World.Ordered

variable {i j k : ι} {x y : Write}

theorem start {σ : Store} {p : ι → Request Reply ε α}
    (hp : ∀ i, (p i).Holding db L.May (fun δ r => r.2.Holding db L.May (fun _ _ => True) δ) []) :
    (World.start σ p).Ordered L where
  apart := World.apart_start σ p
  closed _ := L.closed_nil
  holding := hp

/-- What a session may send with the writes that it holds. -/
theorem may (hw : w.Ordered L) {s : Stmt} (hs : w.Sends i s) : L.May (w.held i) s := by
  have hi := hw.holding i
  unfold World.held
  rcases hs with ⟨k, δ, hs⟩ | ⟨a, k, δ, hs⟩
  · rw [hs] at hi ⊢
    exact hi.1
  · rw [hs] at hi ⊢
    exact hi.1

/-- Along a chain of waiting sessions the ranks rise. -/
theorem rank_lt (hw : w.Ordered L) (hij : w.WaitsOn db i j x) (hjk : w.WaitsOn db j k y) :
    L.rank x < L.rank y := by
  obtain ⟨s, hs, hwait⟩ := hjk.waits
  exact L.climbs (hw.may hs) hwait (hw.closed k) hjk.held (hw.apart j k hjk.ne) x hij.held

/-- **Nobody waits in a circle.** -/
theorem wellFounded (hw : w.Ordered L) : WellFounded (fun j i => w.WaitsFor db i j) := by
  -- `n` bounds the number of ranks above what `j` waits for
  have hacc : ∀ n j, (∀ k y, w.WaitsOn db j k y → L.top < L.rank y + n) →
      Acc (fun j i => w.WaitsFor db i j) j := by
    intro n
    induction n with
    | zero =>
      intro j hj
      refine ⟨j, fun k hjk => ?_⟩
      obtain ⟨y, hy⟩ := hjk
      have := hj k y hy
      have := L.rank_le y
      omega
    | succ n ih =>
      intro j hj
      refine ⟨j, fun k hjk => ih k fun l z hz => ?_⟩
      obtain ⟨y, hy⟩ := hjk
      have := hj k y hy
      have := hw.rank_lt hy hz
      omega
  exact ⟨fun j => hacc (L.top + 1) j fun k y _ => by omega⟩

theorem not_circular (hw : w.Ordered L) (i : ι) : ¬ Relation.TransGen (w.WaitsFor db) i i := by
  intro h
  exact hw.wellFounded.transGen.irrefl.irrefl i (Relation.transGen_swap.mpr h)

variable [DecidableEq ι]

theorem step (hw : w.Ordered L) {l : ι × Action} (h : Step db w l w') : w'.Ordered L where
  apart := hw.apart.step h
  closed i := by
    have hold := hw.closed i
    obtain ⟨j, b⟩ := l
    by_cases hij : i = j
    · subst hij
      unfold World.held at hold ⊢
      cases h with
      | @statement _ s k δ hs free =>
        have hmay := hw.may (Or.inl ⟨k, δ, hs⟩ : w.Sends i s)
        unfold World.held at hmay
        rw [hs] at hold hmay
        rw [World.set_session_self]
        exact L.closed_exec hold hmay
      | @exitStatement _ a s k δ hs free =>
        have hmay := hw.may (Or.inr ⟨a, k, δ, hs⟩ : w.Sends i s)
        unfold World.held at hmay
        rw [hs] at hold hmay
        rw [World.set_session_self]
        exact L.closed_exec hold hmay
      | answer hs =>
        rw [hs] at hold
        rw [World.set_session_self]
        exact hold
      | commit hs =>
        simp only [Function.update_self]
        exact L.closed_nil
      | _ => rw [World.set_session_self]; exact L.closed_nil
    · unfold World.held
      rw [h.session_ne hij]
      exact hold
  holding i := h.holding (hw.holding i)

theorem run (hw : w.Ordered L) {ls : List (ι × Action)} (h : Run db w ls w') : w'.Ordered L :=
  h.invariant hw (fun hv hs => hv.step hs)

/-- **Progress.** Behind every session that is not finished there is one that can go on. -/
theorem exists_step (hw : w.Ordered L) (hi : ¬ (w.session i).Finished) :
    ∃ j, Relation.ReflTransGen (w.WaitsFor db) i j ∧
      ∃ a w', Step db w (j, a) w' ∧ a ≠ .abort ∧ a ≠ .lose :=
  Step.exists_of_wellFounded hw.wellFounded hi

/-- **Completion.** Finitely many sessions can be brought to their ends. -/
theorem complete [Fintype ι] (hw : w.Ordered L) {n : ι → Nat}
    (hn : ∀ i, (w.session i).Budget (n i)) : ∃ ls w', Run db w ls w' ∧
      (∀ l ∈ ls, l.2 ≠ .abort ∧ l.2 ≠ .lose) ∧ ∀ i, (w'.session i).Finished := by
  generalize hN : ∑ i, n i = N
  induction N using Nat.strong_induction_on generalizing w n with
  | _ N ih =>
    by_cases hall : ∀ i, (w.session i).Finished
    · exact ⟨[], w, .nil, by simp, hall⟩
    · push Not at hall
      obtain ⟨i, hi⟩ := hall
      obtain ⟨j, -, a, v, hstep, ha, ha'⟩ := hw.exists_step hi
      obtain ⟨m, hm, hb⟩ := hstep.spends (hn j)
      have hn' : ∀ k, (v.session k).Budget (Function.update n j m k) := by
        intro k
        by_cases hkj : k = j
        · subst hkj
          simpa using hb
        · simpa [hkj, hstep.session_ne hkj] using hn k
      have hlt : ∑ k, Function.update n j m k < N := by
        rw [← hN]
        refine Finset.sum_lt_sum (fun k _ => ?_) ⟨j, Finset.mem_univ j, ?_⟩
        · by_cases hkj : k = j
          · subst hkj
            simp only [Function.update_self]
            omega
          · simp [hkj]
        · simp only [Function.update_self]
          omega
      obtain ⟨ls, w', hrun, hls, hfin⟩ := ih _ hlt (hw.step hstep) hn' rfl
      refine ⟨[(j, a)] ++ ls, w', (Run.single hstep).trans hrun, ?_, hfin⟩
      intro l hl
      rcases List.mem_append.mp hl with hl | hl
      · rw [List.mem_singleton.mp hl]
        exact ⟨ha, ha'⟩
      · exact hls l hl

end World.Ordered

end Transactions
