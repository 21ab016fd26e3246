import ContentApproval.Transactions.Exchanges

/-!
# A group of sessions among others

The sessions of a group live in a part of the store that the others neither read nor write,
and wait for nothing that the others hold (`Secludes`). Then the others make no difference
to the group, in any interleaving.

* `Run.project`: the steps of the group in a run are a run by themselves, in which every
  session of the group stands where it stands in the whole run.
* `Run.lift`: whatever the group can do by itself it can do among the others.
-/

namespace Transactions

variable {Stmt : Type} {Reply : Stmt → Type} {ε α Store Write ι : Type}
  {db : Database Reply Store Write}

/-- Session `i` sends statements with `S i`, which are replied to as `G i` says, and makes
writes with `W i`. The group `B` lives in a part of the store: `R` relates a store to the one
that the group would have by itself. -/
structure Secludes (db : Database Reply Store Write) (S : ι → Stmt → Prop)
    (G : ι → ∀ s, Reply s → Prop) (W : ι → Write → Prop) (B : ι → Prop)
    (R : Store → Store → Prop) : Prop where
  gives : ∀ {i s} σ, S i s → G i s (db.exec s σ).1
  writes : ∀ {i s} σ, S i s → ∀ x ∈ (db.exec s σ).2, W i x
  /-- The group sees the same on both stores. -/
  exec : ∀ {i s σ τ δ}, B i → S i s → R σ τ → (∀ x ∈ δ, W i x) →
    db.exec s (db.view τ δ) = db.exec s (db.view σ δ)
  /-- What the group commits it commits to both. -/
  own : ∀ {i σ τ δ}, B i → R σ τ → (∀ x ∈ δ, W i x) → R (db.view σ δ) (db.view τ δ)
  /-- What the others commit is not in the part of the group. -/
  foreign : ∀ {i σ τ δ}, ¬ B i → R σ τ → (∀ x ∈ δ, W i x) → R (db.view σ δ) τ
  waits : ∀ {i j s x}, B i → ¬ B j → S i s → W j x → ¬ db.Waits s x

/-- The session holds writes with `W`, and sends statements with `S` as long as it is replied
to as `G` says. -/
def Session.Only (S : Stmt → Prop) (G : ∀ s, Reply s → Prop) (W : Write → Prop) :
    Session Reply Write ε α → Prop
  | .running p δ => p.Only S G (fun r => r.2.Only S G fun _ => True) ∧ ∀ x ∈ δ, W x
  | .answered _ exit δ => exit.Only S G (fun _ => True) ∧ ∀ x ∈ δ, W x
  | _ => True

namespace Session.Only

variable {S : Stmt → Prop} {G : ∀ s, Reply s → Prop} {W : Write → Prop}
  {w : World Reply Store Write ε α ι} {i : ι}

theorem sends (h : (w.session i).Only S G W) {s : Stmt} (hs : w.Sends i s) : S s := by
  rcases hs with ⟨k, δ, hs⟩ | ⟨a, k, δ, hs⟩
  · rw [hs] at h
    exact h.1.1
  · rw [hs] at h
    exact h.1.1

theorem held (h : (w.session i).Only S G W) : ∀ x ∈ w.held i, W x := by
  unfold World.held
  cases hs : w.session i with
  | running p δ =>
    rw [hs] at h
    exact h.2
  | answered a exit δ =>
    rw [hs] at h
    exact h.2
  | _ => exact fun x hx => by cases hx

end Session.Only

section Step

variable [DecidableEq ι] {w w' v v' : World Reply Store Write ε α ι} {i : ι} {a : Action}

/-- A session can take its step in every world in which it stands where it stands here, gets the
same reply and does not have to wait. What a commit does to the store it does there, too. -/
theorem Step.mimic (hs : Step db w (i, a) w') (hi : v.session i = w.session i)
    (hsend : ∀ s, w.Sends i s → (∀ j, j ≠ i → ∀ x ∈ w.held j, ¬ db.Waits s x) →
      db.exec s (db.view v.store (w.held i)) = db.exec s (db.view w.store (w.held i)) ∧
        ∀ j, j ≠ i → ∀ x ∈ v.held j, ¬ db.Waits s x) :
    ∃ v' δ, Step db v (i, a) v' ∧ v'.session i = w'.session i ∧ (∀ x ∈ δ, x ∈ w.held i) ∧
      w'.store = db.view w.store δ ∧ v'.store = db.view v.store δ := by
  have hnil : ∀ x ∈ ([] : List Write), x ∈ w.held i := fun x hx => by cases hx
  cases hs with
  | @statement _ s k δ hw free =>
    have hheld : w.held i = δ := by rw [World.held, hw]; rfl
    obtain ⟨hexec, hfree⟩ := hsend s (Or.inl ⟨k, δ, hw⟩) free
    rw [hheld] at hexec
    refine ⟨_, [], Step.statement (hi.trans hw) hfree, ?_, hnil, rfl, rfl⟩
    rw [World.set_session_self, World.set_session_self, hexec]
  | @exitStatement _ b s k δ hw free =>
    have hheld : w.held i = δ := by rw [World.held, hw]; rfl
    obtain ⟨hexec, hfree⟩ := hsend s (Or.inr ⟨b, k, δ, hw⟩) free
    rw [hheld] at hexec
    refine ⟨_, [], Step.exitStatement (hi.trans hw) hfree, ?_, hnil, rfl, rfl⟩
    rw [World.set_session_self, World.set_session_self, hexec]
  | answer hw =>
    exact ⟨_, [], Step.answer (hi.trans hw), by simp, hnil, rfl, rfl⟩
  | raise hw =>
    exact ⟨_, [], Step.raise (hi.trans hw), by simp, hnil, rfl, rfl⟩
  | exitRaise hw =>
    exact ⟨_, [], Step.exitRaise (hi.trans hw), by simp, hnil, rfl, rfl⟩
  | @commit _ b δ hw =>
    have hheld : w.held i = δ := by rw [World.held, hw]; rfl
    exact ⟨_, δ, Step.commit (hi.trans hw), by simp, fun x hx => hheld ▸ hx, rfl, rfl⟩
  | abort hw =>
    exact ⟨_, [], Step.abort (hi.trans hw), by simp, hnil, rfl, rfl⟩
  | lose hw =>
    exact ⟨_, [], Step.lose (hi.trans hw), by simp, hnil, rfl, rfl⟩

variable {S : ι → Stmt → Prop} {G : ι → ∀ s, Reply s → Prop} {W : ι → Write → Prop}
  {B : ι → Prop} {R : Store → Store → Prop}

/-- Every session keeps to its statements and its writes. -/
theorem Step.only (hsec : Secludes db S G W B R) (hs : Step db w (i, a) w')
    (hw : ∀ j, (w.session j).Only (S j) (G j) (W j)) :
    ∀ j, (w'.session j).Only (S j) (G j) (W j) := by
  intro j
  by_cases hj : j = i
  · subst hj
    have hi := hw j
    cases hs with
    | @statement _ s k δ h _ =>
      rw [h] at hi
      rw [World.set_session_self]
      refine ⟨hi.1.2 _ (hsec.gives _ hi.1.1), fun x hx => ?_⟩
      exact (List.mem_append.mp hx).elim (hi.2 x) (hsec.writes _ hi.1.1 x)
    | @exitStatement _ b s k δ h _ =>
      rw [h] at hi
      rw [World.set_session_self]
      refine ⟨hi.1.2 _ (hsec.gives _ hi.1.1), fun x hx => ?_⟩
      exact (List.mem_append.mp hx).elim (hi.2 x) (hsec.writes _ hi.1.1 x)
    | answer h =>
      rw [h] at hi
      rw [World.set_session_self]
      exact hi
    | commit h =>
      simp only [Function.update_self]
      trivial
    | _ =>
      rw [World.set_session_self]
      trivial
  · rw [hs.session_ne hj]
    exact hw j

omit [DecidableEq ι] in
/-- The world `v` is that of the group by itself: the others have not begun to write. -/
structure World.Alone (B : ι → Prop) (R : Store → Store → Prop)
    (w v : World Reply Store Write ε α ι) : Prop where
  session : ∀ j, B j → v.session j = w.session j
  idle : ∀ j, ¬ B j → v.held j = []
  store : R w.store v.store

namespace World.Alone

omit [DecidableEq ι] in
theorem held (h : w.Alone B R v) {j : ι} (hj : B j) : v.held j = w.held j := by
  rw [World.held, World.held, h.session j hj]

/-- The sessions of the group take the same step in both worlds. -/
theorem both (hsec : Secludes db S G W B R) (hw : ∀ j, (w.session j).Only (S j) (G j) (W j))
    (h : w.Alone B R v) (hB : B i) (hs : Step db w (i, a) w') (hs' : Step db v (i, a) v')
    (hi : v'.session i = w'.session i) {δ : List Write} (hδ : ∀ x ∈ δ, x ∈ w.held i)
    (hstore : w'.store = db.view w.store δ) (hstore' : v'.store = db.view v.store δ) :
    w'.Alone B R v' where
  session j hj := by
    by_cases hji : j = i
    · rw [hji, hi]
    · rw [hs.session_ne hji, hs'.session_ne hji, h.session j hj]
  idle j hj := by
    have hji : j ≠ i := fun hji => hj (hji ▸ hB)
    rw [World.held, hs'.session_ne hji]
    exact h.idle j hj
  store := by
    rw [hstore, hstore']
    exact hsec.own hB h.store fun x hx => (hw i).held x (hδ x hx)

/-- A step of the group is a step of the group by itself. -/
theorem project (hsec : Secludes db S G W B R) (hw : ∀ j, (w.session j).Only (S j) (G j) (W j))
    (h : w.Alone B R v) (hB : B i) (hs : Step db w (i, a) w') :
    ∃ v', Step db v (i, a) v' ∧ w'.Alone B R v' := by
  obtain ⟨v', δ, hs', hi, hδ, hstore, hstore'⟩ := hs.mimic (h.session i hB) (by
    intro s hsends hfree
    refine ⟨hsec.exec hB ((hw i).sends hsends) h.store (hw i).held, fun j hj x hx => ?_⟩
    by_cases hBj : B j
    · rw [h.held hBj] at hx
      exact hfree j hj x hx
    · rw [h.idle j hBj] at hx
      cases hx)
  exact ⟨v', hs', h.both hsec hw hB hs hs' hi hδ hstore hstore'⟩

/-- A step of the group by itself is possible among the others. -/
theorem lift (hsec : Secludes db S G W B R) (hw : ∀ j, (w.session j).Only (S j) (G j) (W j))
    (h : w.Alone B R v) (hB : B i) (hs' : Step db v (i, a) v') :
    ∃ w', Step db w (i, a) w' ∧ w'.Alone B R v' := by
  have hheld : v.held i = w.held i := h.held hB
  obtain ⟨w', δ, hs, hi, hδ, hstore', hstore⟩ := hs'.mimic (h.session i hB).symm (by
    intro s hsends hfree
    have hsends' : w.Sends i s := by
      unfold World.Sends at hsends ⊢
      rwa [h.session i hB] at hsends
    have hS := (hw i).sends hsends'
    rw [hheld]
    refine ⟨(hsec.exec hB hS h.store (hw i).held).symm, fun j hj x hx => ?_⟩
    by_cases hBj : B j
    · rw [← h.held hBj] at hx
      exact hfree j hj x hx
    · exact hsec.waits hB hBj hS ((hw j).held x hx))
  refine ⟨w', hs, h.both hsec hw hB hs hs' hi.symm (fun x hx => ?_) hstore hstore'⟩
  exact hheld ▸ hδ x hx

/-- A step of somebody else makes no difference to the group. -/
theorem foreign (hsec : Secludes db S G W B R) (hw : ∀ j, (w.session j).Only (S j) (G j) (W j))
    (h : w.Alone B R v) (hB : ¬ B i) (hs : Step db w (i, a) w') : w'.Alone B R v where
  session j hj := by
    rw [hs.session_ne fun hji => hB (hji ▸ hj)]
    exact h.session j hj
  idle := h.idle
  store := by
    by_cases ha : a = .commit
    · subst ha
      obtain ⟨b, δ, hi, hstore, -⟩ := hs.store_commit
      rw [hstore]
      refine hsec.foreign hB h.store fun x hx => (hw i).held x ?_
      rwa [World.held, hi]
    · rw [hs.store_eq ha]
      exact h.store

end World.Alone

variable {ls : List (ι × Action)}

/-- **The others make no difference.** Without their steps a run is a run of the group by
itself. -/
theorem Run.project [DecidablePred B] (hsec : Secludes db S G W B R)
    (hw : ∀ j, (w.session j).Only (S j) (G j) (W j)) (h : w.Alone B R v) (hrun : Run db w ls w') :
    (∀ j, (w'.session j).Only (S j) (G j) (W j)) ∧
      ∃ v', Run db v (ls.filter fun l => B l.1) v' ∧ w'.Alone B R v' := by
  induction hrun with
  | nil => exact ⟨hw, v, .nil, h⟩
  | @snoc ls l u u' _ hs ih =>
    obtain ⟨hu, v', hrun', h'⟩ := ih
    obtain ⟨i, a⟩ := l
    refine ⟨hs.only hsec hu, ?_⟩
    rw [List.filter_append]
    by_cases hB : B i
    · obtain ⟨v'', hs', h''⟩ := h'.project hsec hu hB hs
      refine ⟨v'', ?_, h''⟩
      rw [List.filter_singleton, decide_eq_true hB]
      exact hrun'.snoc hs'
    · refine ⟨v', ?_, h'.foreign hsec hu hB hs⟩
      rw [List.filter_singleton, decide_eq_false hB]
      simpa using hrun'

/-- **Nor are they in the way.** Every run of the group by itself is possible among the others. -/
theorem Run.lift (hsec : Secludes db S G W B R)
    (hw : ∀ j, (w.session j).Only (S j) (G j) (W j)) (h : w.Alone B R v) (hrun : Run db v ls v')
    (hls : ∀ l ∈ ls, B l.1) :
    ∃ w', Run db w ls w' ∧ w'.Alone B R v' := by
  suffices hboth : ∃ w', Run db w ls w' ∧ (∀ j, (w'.session j).Only (S j) (G j) (W j)) ∧
      w'.Alone B R v' by
    obtain ⟨w', hrun', -, h'⟩ := hboth
    exact ⟨w', hrun', h'⟩
  induction hrun with
  | nil => exact ⟨w, .nil, hw, h⟩
  | @snoc ls l u u' _ hs ih =>
    obtain ⟨w', hrun', hw', h'⟩ := ih fun l hl => hls l (List.mem_append_left _ hl)
    obtain ⟨i, a⟩ := l
    have hB : B i := hls (i, a) (List.mem_append_right _ List.mem_cons_self)
    obtain ⟨w'', hs', h''⟩ := h'.lift hsec hw' hB hs
    exact ⟨w'', hrun'.snoc hs', hs'.only hsec hw', h''⟩

end Step

end Transactions
