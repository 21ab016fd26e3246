import ContentApproval.Transactions.RelyGuarantee

/-!
# Exceptions before and after the answer

A request may raise before its answer, and the rest of its transaction may raise after it. If the
precondition of the request says of both what they raise (`OnErrors`), then in every interleaving
each exception is one of these (`World.Sound.excused`): a session that has failed has its reason,
and one that was answered and did not commit has its reason too, or was rolled back from outside.
-/

namespace Transactions

variable {Stmt : Type} {Reply : Stmt → Type} {Store Write : Type}
  {db : Database Reply Store Write} {ε α β ι : Type}

/-- A program ends in an exception only if `R` allows it. -/
def OnError (R : ε → Store → Prop) : Except ε β → List Write → Store → Prop
  | .ok _, _, _ => True
  | .error e, _, σ => R e σ

/-- A request ends in an exception only if `R` allows it, and the rest of its transaction after its
answer only if `R'` does. -/
def OnErrors (D : Discipline db) (R R' : ε → Store → Prop) :
    Except ε (α × Prog Reply ε Unit) → List Write → Store → Prop
  | .ok (_, exit), δ, σ => Wp D (fun _ _ => True) exit (OnError R') δ σ
  | .error e, _, σ => R e σ

/-- A session that has only the exceptions of `R` before its answer and of `R'` after it. The
transaction may also have been `lost` by a rollback from outside. -/
def Session.Excused (D : Discipline db) (R R' : ε → Store → Prop) (lost : Prop) :
    Session Reply Write ε α → Store → Prop
  | .running p δ, σ => Wp D (fun _ _ => True) p (OnErrors D R R') δ σ
  | .answered _ exit δ, σ => Wp D (fun _ _ => True) exit (OnError R') δ σ
  | .failed e, σ => R e σ
  | .lost _, σ => lost ∨ ∃ e, R' e σ
  | _, _ => True

/-- What commits of other transactions do not change. -/
def Discipline.Stable (D : Discipline db) (R : ε → Store → Prop) : Prop :=
  ∀ e σ σ', R e σ → D.EnvStep [] σ σ' → R e σ'

section Excused

variable {D : Discipline db} {R R' : ε → Store → Prop} {lost lost' : Prop}
  {s : Session Reply Write ε α} {σ σ' : Store}

theorem Discipline.Stable.env (hR : D.Stable R) {e : ε} (h : R e σ) (he : D.Env [] σ σ') :
    R e σ' :=
  he.keeps h fun hs hr => hR _ _ _ hr hs

theorem Session.Excused.mono (h : s.Excused D R R' lost σ) (hlost : lost → lost') :
    s.Excused D R R' lost' σ := by
  cases s with
  | lost a => exact Or.imp_left hlost h
  | _ => exact h

theorem Session.Excused.env (hR : D.Stable R) (hR' : D.Stable R') (h : s.Excused D R R' lost σ)
    (he : D.Env s.writes σ σ') : s.Excused D R R' lost σ' := by
  cases s with
  | running p δ => exact Wp.env h he
  | answered a exit δ => exact Wp.env h he
  | failed e => exact hR.env h he
  | lost a => exact Or.imp_right (fun ⟨e, hr⟩ => ⟨e, hR'.env hr he⟩) h
  | committed a δ => trivial
  | aborted => trivial

end Excused

variable [DecidableEq ι] {D : Discipline db} {R R' : ε → Store → Prop} {C : ι → Contract D ε α}
  {w w' : World Reply Store Write ε α ι} {i : ι} {ls : List (ι × Action)}

omit [DecidableEq ι] in
/-- The store that a session in the state `s` finds. -/
theorem World.Sound.found_at (hw : w.Sound C) {s : Session Reply Write ε α}
    (hs : w.session i = s) : Found D (fun _ _ => True) s.writes w.store w.store := by
  have hf := hw.found i (J := fun _ _ => True) trivial
  rwa [World.held, hs] at hf

/-- Every step keeps it, whoever takes it. -/
theorem World.Sound.excused_step (hR : D.Stable R) (hR' : D.Stable R') (hw : w.Sound C)
    {l : ι × Action} (h : Step db w l w')
    (hi : (w.session i).Excused D R R' ((i, .lose) ∈ ls) w.store) :
    (w'.session i).Excused D R R' ((i, .lose) ∈ ls ++ [l]) w'.store := by
  obtain ⟨j, b⟩ := l
  by_cases hij : i = j
  · subst hij
    cases h with
    | commit hs => simp only [Function.update_self, Session.Excused]
    | statement hs free =>
      rw [hs] at hi
      rw [World.set_session_self]
      exact (hi _ (hw.found_at hs)).2
    | exitStatement hs free =>
      rw [hs] at hi
      rw [World.set_session_self]
      exact (hi _ (hw.found_at hs)).2
    | answer hs =>
      rw [hs] at hi
      rw [World.set_session_self]
      exact hi _ (hw.found_at hs)
    | raise hs =>
      rw [hs] at hi
      rw [World.set_session_self]
      exact hi _ (hw.found_at hs)
    | exitRaise hs =>
      rw [hs] at hi
      rw [World.set_session_self]
      exact Or.inr ⟨_, hi _ (hw.found_at hs)⟩
    | abort hs =>
      rw [World.set_session_self]
      trivial
    | lose hs =>
      rw [World.set_session_self]
      exact Or.inl (List.mem_append_right _ List.mem_cons_self)
  · rw [h.session_ne hij]
    exact (hi.env hR hR' (hw.env h hij)).mono (List.mem_append_left _)

/-- **In every interleaving a session has only the exceptions that its precondition allows.** -/
theorem World.Sound.excused (hR : D.Stable R) (hR' : D.Stable R') (hw : w.Sound C)
    (h : Run db w ls w')
    (hi : (w.session i).Excused D R R' ((i, .lose) ∈ ([] : List (ι × Action))) w.store) :
    (w'.session i).Excused D R R' ((i, .lose) ∈ ls) w'.store := by
  induction h with
  | nil => exact hi
  | snoc hrun hs ih => exact (hw.run hrun).excused_step hR hR' hs ih

end Transactions
