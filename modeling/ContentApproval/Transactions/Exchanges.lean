import ContentApproval.Transactions.World
import Mathlib.Data.List.Induction

/-!
# What a session was told

An `Exchange` is a statement with the reply to it. `Prog.Told` is a property of programs
that looks at the exchanges so far: which statements they allow the program to send, and
which results. `Took` names an exchange of a run, with the step in which it took place and
the world before that step.

* `Run.told`: in every run, the exchanges that a session took one after the other allow
  what it sends next and what it has answered.
* `Run.made`: every write of a session comes from an exchange that it took.
-/

namespace Transactions

variable {Stmt : Type} {Reply : Stmt → Type} {ε α β Store Write ι : Type}

/-- A statement and its reply. -/
structure Exchange {Stmt : Type} (Reply : Stmt → Type) where
  stmt : Stmt
  reply : Reply stmt

/-! ## Programs -/

/-- After the exchanges `h`, the program sends only what `Φ` allows and returns only what
`P` allows. -/
def Prog.Told (Φ : List (Exchange Reply) → Stmt → Prop) (P : List (Exchange Reply) → α → Prop) :
    Prog Reply ε α → List (Exchange Reply) → Prop
  | .ret a, h => P h a
  | .throw _, _ => True
  | .exec s k, h => Φ h s ∧ ∀ r, (k r).Told Φ P (h ++ [⟨s, r⟩])

namespace Prog.Told

variable {Φ : List (Exchange Reply) → Stmt → Prop} {h : List (Exchange Reply)}

theorem mono {P Q : List (Exchange Reply) → α → Prop} {p : Prog Reply ε α} (hp : p.Told Φ P h)
    (hPQ : ∀ h' a, P h' a → Q h' a) : p.Told Φ Q h := by
  induction p generalizing h with
  | ret a => exact hPQ h a hp
  | throw e => trivial
  | exec s k ih => exact ⟨hp.1, fun r => ih r (hp.2 r)⟩

theorem bind {P : List (Exchange Reply) → α → Prop} {Q : List (Exchange Reply) → β → Prop}
    {p : Prog Reply ε α} {f : α → Prog Reply ε β} (hp : p.Told Φ P h)
    (hf : ∀ h' a, P h' a → (f a).Told Φ Q h') : (p.bind f).Told Φ Q h := by
  induction p generalizing h with
  | ret a => exact hf h a hp
  | throw e => trivial
  | exec s k ih => exact ⟨hp.1, fun r => ih r (hp.2 r)⟩

theorem catchError {P : List (Exchange Reply) → α → Prop} {p : Prog Reply ε α}
    {f : ε → Prog Reply ε α} (hp : p.Told Φ P h) (hf : ∀ h' e, (f e).Told Φ P h') :
    (p.catchError f).Told Φ P h := by
  induction p generalizing h with
  | ret a => exact hp
  | throw e => exact hf h e
  | exec s k ih => exact ⟨hp.1, fun r => ih r (hp.2 r)⟩

/-- A program all of whose statements are allowed, whatever it was told. -/
theorem of_only {S : Stmt → Prop} {P : α → Prop} {p : Prog Reply ε α}
    (hp : p.Only S (fun _ _ => True) P) (hS : ∀ h' s, S s → Φ h' s) :
    p.Told Φ (fun _ a => P a) h := by
  induction p generalizing h with
  | ret a => exact hp
  | throw e => trivial
  | exec s k ih => exact ⟨hS h s hp.1, fun r => ih r (hp.2 r trivial)⟩

end Prog.Told

/-! ## Sessions -/

/-- The exchanges `h` allow where the session stands. `A` says which answers the exchanges
before them allow. -/
def Session.Told (Φ : List (Exchange Reply) → Stmt → Prop)
    (A : List (Exchange Reply) → α → Prop) :
    Session Reply Write ε α → List (Exchange Reply) → Prop
  | .running p _, h => p.Told Φ (fun h r => A h r.1 ∧ r.2.Told Φ (fun _ _ => True) h) h
  | .answered a exit _, h => (∃ h₀, h₀ <+: h ∧ A h₀ a) ∧ exit.Told Φ (fun _ _ => True) h
  | .committed a _, h => ∃ h₀, h₀ <+: h ∧ A h₀ a
  | .lost a, h => ∃ h₀, h₀ <+: h ∧ A h₀ a
  | .failed _, _ => True
  | .aborted, _ => True

variable {Φ : List (Exchange Reply) → Stmt → Prop} {A : List (Exchange Reply) → α → Prop}

theorem Session.Told.answer {s : Session Reply Write ε α} {h : List (Exchange Reply)}
    (hs : s.Told Φ A h) {a : α} (ha : s.answer? = some a) : ∃ h₀, h₀ <+: h ∧ A h₀ a := by
  cases s with
  | answered b exit δ => cases ha; exact hs.1
  | committed b δ => cases ha; exact hs
  | lost b => cases ha; exact hs
  | _ => cases ha

/-- The statement that the session of `i` sends next. -/
def World.Sends (w : World Reply Store Write ε α ι) (i : ι) (s : Stmt) : Prop :=
  (∃ k δ, w.session i = .running (.exec s k) δ) ∨
    ∃ a k δ, w.session i = .answered a (.exec s k) δ

theorem Session.Told.sends {w : World Reply Store Write ε α ι} {i : ι}
    {h : List (Exchange Reply)} (hi : (w.session i).Told Φ A h) {s : Stmt} (hs : w.Sends i s) :
    Φ h s := by
  rcases hs with ⟨k, δ, hs⟩ | ⟨a, k, δ, hs⟩
  · rw [hs] at hi
    exact hi.1
  · rw [hs] at hi
    exact hi.2.1

/-! ## Runs -/

variable [DecidableEq ι] {db : Database Reply Store Write}

/-- Step `n` of the run `ls` from `w₀` was the exchange `x` of session `i`, and `v` is the
world before it. -/
structure Took (db : Database Reply Store Write) (w₀ : World Reply Store Write ε α ι)
    (ls : List (ι × Action)) (i : ι) (n : Nat) (x : Exchange Reply)
    (v : World Reply Store Write ε α ι) : Prop where
  before : Run db w₀ (ls.take n) v
  step : ls[n]? = some (i, .statement)
  sends : v.Sends i x.stmt
  reply : x.reply = (db.exec x.stmt (db.view v.store (v.held i))).1

variable {w₀ w w' v : World Reply Store Write ε α ι} {ls ls' : List (ι × Action)} {i : ι} {n : Nat}
  {x : Exchange Reply}

theorem Took.lt (h : Took db w₀ ls i n x v) : n < ls.length := by
  have hn := h.step
  rw [List.getElem?_eq_some_iff] at hn
  exact hn.1

/-- What a run took, a longer one took. -/
theorem Took.append (h : Took db w₀ ls i n x v) (ls' : List (ι × Action)) :
    Took db w₀ (ls ++ ls') i n x v where
  before := by
    rw [List.take_append_of_le_length (by have := h.lt; omega)]
    exact h.before
  step := by
    rw [List.getElem?_append_left h.lt]
    exact h.step
  sends := h.sends
  reply := h.reply

theorem Took.of_take {m : Nat} (h : Took db w₀ (ls.take m) i n x v) : Took db w₀ ls i n x v := by
  have := h.append (ls.drop m)
  rwa [List.take_append_drop] at this

/-- The step that ends a run. -/
theorem Took.last (hrun : Run db w₀ ls w) {s : Stmt} (hs : w.Sends i s) :
    Took db w₀ (ls ++ [(i, .statement)]) i ls.length
      ⟨s, (db.exec s (db.view w.store (w.held i))).1⟩ w where
  before := by simpa using hrun
  step := by simp
  sends := hs
  reply := rfl

/-- The exchanges `hs` of session `i` in a run, each with the number of its step. -/
structure Heard (db : Database Reply Store Write) (w₀ : World Reply Store Write ε α ι)
    (ls : List (ι × Action)) (i : ι) (hs : List (Nat × Exchange Reply)) : Prop where
  ordered : hs.Pairwise (fun m m' => m.1 < m'.1)
  took : ∀ m ∈ hs, ∃ v, Took db w₀ ls i m.1 m.2 v

theorem Heard.append {hs : List (Nat × Exchange Reply)} (h : Heard db w₀ ls i hs)
    (ls' : List (ι × Action)) : Heard db w₀ (ls ++ ls') i hs :=
  ⟨h.ordered, fun m hm => (h.took m hm).imp fun _ hv => hv.append ls'⟩

theorem Heard.statement {hs : List (Nat × Exchange Reply)} (h : Heard db w₀ ls i hs)
    (hrun : Run db w₀ ls w) {s : Stmt} (hs' : w.Sends i s) :
    Heard db w₀ (ls ++ [(i, .statement)]) i
      (hs ++ [(ls.length, ⟨s, (db.exec s (db.view w.store (w.held i))).1⟩)]) where
  ordered := by
    refine List.pairwise_append.mpr ⟨h.ordered, List.pairwise_singleton _ _, ?_⟩
    intro m hm m' hm'
    obtain ⟨v, hv⟩ := h.took m hm
    rw [List.mem_singleton.mp hm']
    exact hv.lt
  took m hm := by
    rcases List.mem_append.mp hm with hm | hm
    · exact (h.append _).took m hm
    · rw [List.mem_singleton.mp hm]
      exact ⟨w, Took.last hrun hs'⟩

theorem exists_prefix_append {γ : Type} {P : List γ → Prop} {h : List γ}
    (hp : ∃ h₀, h₀ <+: h ∧ P h₀) (h' : List γ) : ∃ h₀, h₀ <+: h ++ h' ∧ P h₀ := by
  obtain ⟨h₀, hpre, hP⟩ := hp
  exact ⟨h₀, hpre.trans (List.prefix_append h h'), hP⟩

/-- **What a session was told.** -/
theorem Run.told (h : Run db w₀ ls w) (hi : (w₀.session i).Told Φ A []) :
    ∃ hs, Heard db w₀ ls i hs ∧ (w.session i).Told Φ A (hs.map Prod.snd) := by
  induction h with
  | nil => exact ⟨[], ⟨.nil, by simp⟩, hi⟩
  | @snoc ls l w w' hrun hstep ih =>
    obtain ⟨hs, hheard, htold⟩ := ih
    obtain ⟨j, b⟩ := l
    by_cases hij : i = j
    · subst hij
      cases hstep with
      | @statement _ s k δ hs' free =>
        have hsends : w.Sends i s := Or.inl ⟨k, δ, hs'⟩
        have hwrites : w.held i = δ := by rw [World.held, hs']; rfl
        refine ⟨_, hheard.statement hrun hsends, ?_⟩
        rw [hs'] at htold
        rw [World.set_session_self, List.map_append, hwrites]
        exact htold.2 _
      | @exitStatement _ a s k δ hs' free =>
        have hsends : w.Sends i s := Or.inr ⟨a, k, δ, hs'⟩
        have hwrites : w.held i = δ := by rw [World.held, hs']; rfl
        refine ⟨_, hheard.statement hrun hsends, ?_⟩
        rw [hs'] at htold
        rw [World.set_session_self, List.map_append, hwrites]
        exact ⟨exists_prefix_append htold.1 _, htold.2.2 _⟩
      | answer hs' =>
        refine ⟨hs, hheard.append _, ?_⟩
        rw [hs'] at htold
        rw [World.set_session_self]
        exact ⟨⟨_, List.prefix_rfl, htold.1⟩, htold.2⟩
      | raise hs' => exact ⟨hs, hheard.append _, by rw [World.set_session_self]; trivial⟩
      | exitRaise hs' =>
        rw [hs'] at htold
        exact ⟨hs, hheard.append _, by rw [World.set_session_self]; exact htold.1⟩
      | commit hs' =>
        rw [hs'] at htold
        exact ⟨hs, hheard.append _, by simp only [Function.update_self]; exact htold.1⟩
      | abort hs' => exact ⟨hs, hheard.append _, by rw [World.set_session_self]; trivial⟩
      | lose hs' =>
        rw [hs'] at htold
        exact ⟨hs, hheard.append _, by rw [World.set_session_self]; exact htold.1⟩
    · refine ⟨hs, hheard.append _, ?_⟩
      rw [hstep.session_ne hij]
      exact htold

/-! ## One run, one outcome -/

/-- A step is determined by its label. -/
theorem Step.unique {l : ι × Action} (h : Step db w l w') {w'' : World Reply Store Write ε α ι}
    (h' : Step db w l w'') : w' = w'' := by
  cases h with
  | statement hs free =>
    cases h' with
    | statement hs' free' =>
      cases hs.symm.trans hs'
      rfl
    | _ => simp_all
  | exitStatement hs free =>
    cases h' with
    | exitStatement hs' free' =>
      cases hs.symm.trans hs'
      rfl
    | _ => simp_all
  | _ => cases h' <;> simp_all

/-- The last step of a run. -/
theorem Run.last {l : ι × Action} (h : Run db w (ls ++ [l]) w') :
    ∃ v, Run db w ls v ∧ Step db v l w' := by
  generalize hls : ls ++ [l] = ls' at h
  cases h with
  | nil => simp at hls
  | @snoc ls₂ l₂ v _ hrun hs =>
    obtain ⟨rfl, hl⟩ := List.append_inj' hls rfl
    obtain rfl := List.singleton_inj.mp hl
    exact ⟨v, hrun, hs⟩

theorem Run.unique (h : Run db w ls w') {w'' : World Reply Store Write ε α ι}
    (h' : Run db w ls w'') : w' = w'' := by
  induction h generalizing w'' with
  | nil =>
    generalize hls : ([] : List (ι × Action)) = ls at h'
    cases h' with
    | nil => rfl
    | snoc hrun hs => simp at hls
  | snoc hrun hs ih =>
    obtain ⟨u, hrun', hs'⟩ := h'.last
    obtain rfl := ih hrun'
    exact hs.unique hs'

theorem Run.split (h : Run db w (ls ++ ls') w') : ∃ v, Run db w ls v ∧ Run db v ls' w' := by
  induction ls' using List.reverseRecOn generalizing w' with
  | nil => exact ⟨w', by simpa using h, .nil⟩
  | append_singleton ls' l ih =>
    rw [← List.append_assoc] at h
    obtain ⟨u, hrun, hs⟩ := h.last
    obtain ⟨v, hv, hv'⟩ := ih hrun
    exact ⟨v, hv, hv'.snoc hs⟩

/-- The run between two exchanges of a session. -/
theorem Took.between {m : Nat} {y : Exchange Reply} (h : Took db w₀ ls i m x v)
    (h' : Took db w₀ ls i n y w) (hmn : m < n) : Run db v ((ls.take n).drop m) w := by
  have hrun := h'.before
  rw [← List.take_append_drop m (ls.take n)] at hrun
  obtain ⟨u, hu, hrest⟩ := hrun.split
  rw [List.take_take, Nat.min_eq_left (Nat.le_of_lt hmn)] at hu
  rwa [hu.unique h.before] at hrest

/-- The run from an exchange on. -/
theorem Took.after (h : Took db w₀ ls i n x v) (hrun : Run db w₀ ls w) :
    Run db v (ls.drop n) w := by
  rw [← List.take_append_drop n ls] at hrun
  obtain ⟨u, hu, hrest⟩ := hrun.split
  rwa [hu.unique h.before] at hrest

/-- Without a commit the store stays as it is. -/
theorem Run.store_eq (h : Run db w ls w') (hls : ∀ l ∈ ls, l.2 ≠ .commit) :
    w'.store = w.store := by
  induction h with
  | nil => rfl
  | @snoc ls l v v' _ hs ih =>
    obtain ⟨j, b⟩ := l
    rw [hs.store_eq (hls (j, b) (by simp)), ih fun l hl => hls l (List.mem_append_left _ hl)]

/-! ## Where writes come from -/

/-- All writes of a session that was not rolled back. -/
def Session.made : Session Reply Write ε α → List Write
  | .running _ δ => δ
  | .answered _ _ δ => δ
  | .committed _ δ => δ
  | _ => []

/-- **Every write of a session comes from an exchange that it took.** -/
theorem Run.made (h : Run db w₀ ls w) (hi : (w₀.session i).made = []) :
    ∀ x ∈ (w.session i).made, ∃ n y v, Took db w₀ ls i n y v ∧
      x ∈ (db.exec y.stmt (db.view v.store (v.held i))).2 := by
  induction h with
  | nil => simp [hi]
  | @snoc ls l w w' hrun hstep ih =>
    have hold : ∀ x ∈ (w.session i).made, ∃ n y v, Took db w₀ (ls ++ [l]) i n y v ∧
        x ∈ (db.exec y.stmt (db.view v.store (v.held i))).2 := by
      intro x hx
      obtain ⟨n, y, v, htook, hmem⟩ := ih x hx
      exact ⟨n, y, v, htook.append _, hmem⟩
    obtain ⟨j, b⟩ := l
    by_cases hij : i = j
    · subst hij
      cases hstep with
      | @statement _ s k δ hs' free =>
        have hwrites : w.held i = δ := by rw [World.held, hs']; rfl
        intro x hx
        rw [World.set_session_self] at hx
        rcases List.mem_append.mp hx with hx | hx
        · exact hold x (by rw [hs']; exact hx)
        · exact ⟨_, _, w, Took.last hrun (Or.inl ⟨k, δ, hs'⟩), by rwa [hwrites]⟩
      | @exitStatement _ a s k δ hs' free =>
        have hwrites : w.held i = δ := by rw [World.held, hs']; rfl
        intro x hx
        rw [World.set_session_self] at hx
        rcases List.mem_append.mp hx with hx | hx
        · exact hold x (by rw [hs']; exact hx)
        · exact ⟨_, _, w, Took.last hrun (Or.inr ⟨a, k, δ, hs'⟩), by rwa [hwrites]⟩
      | answer hs' =>
        intro x hx
        rw [World.set_session_self] at hx
        exact hold x (by rw [hs']; exact hx)
      | commit hs' =>
        intro x hx
        simp only [Function.update_self] at hx
        exact hold x (by rw [hs']; exact hx)
      | _ =>
        intro x hx
        rw [World.set_session_self] at hx
        cases hx
    · rw [hstep.session_ne hij]
      exact hold

omit [DecidableEq ι] in
theorem World.held_of_made (hi : (w.session i).made = []) : w.held i = [] := by
  unfold World.held
  cases hs : w.session i with
  | running p δ => rw [hs] at hi; exact hi
  | answered a exit δ => rw [hs] at hi; exact hi
  | _ => rfl

/-- The session was rolled back. -/
def Session.RolledBack : Session Reply Write ε α → Prop
  | .failed _ => True
  | .aborted => True
  | .lost _ => True
  | _ => False

theorem Step.rolledBack {l : ι × Action} (h : Step db w l w') (hi : (w.session i).RolledBack) :
    (w'.session i).RolledBack := by
  obtain ⟨j, b⟩ := l
  by_cases hij : i = j
  · subst hij
    cases h <;> simp_all [Session.RolledBack]
  · rwa [h.session_ne hij]

theorem Step.made_prefix {l : ι × Action} (h : Step db w l w') :
    (w.session i).made <+: (w'.session i).made ∨ (w'.session i).RolledBack := by
  obtain ⟨j, b⟩ := l
  by_cases hij : i = j
  · subst hij
    cases h with
    | statement hs free =>
      rw [hs, World.set_session_self]
      exact Or.inl (List.prefix_append _ _)
    | exitStatement hs free =>
      rw [hs, World.set_session_self]
      exact Or.inl (List.prefix_append _ _)
    | answer hs =>
      rw [hs, World.set_session_self]
      exact Or.inl List.prefix_rfl
    | commit hs =>
      simp only [hs, Function.update_self]
      exact Or.inl List.prefix_rfl
    | _ =>
      rw [World.set_session_self]
      exact Or.inr trivial
  · rw [h.session_ne hij]
    exact Or.inl List.prefix_rfl

/-- **A session only adds to its writes**, unless it is rolled back. -/
theorem Run.made_prefix (h : Run db w ls w') :
    (w.session i).made <+: (w'.session i).made ∨ (w'.session i).RolledBack := by
  induction h with
  | nil => exact Or.inl List.prefix_rfl
  | snoc _ hs ih =>
    rcases ih with ih | ih
    · exact hs.made_prefix.imp_left ih.trans
    · exact Or.inr (hs.rolledBack ih)

/-- A session that may only read holds no writes. -/
theorem Run.made_eq_nil (h : Run db w₀ ls w) (hi : (w₀.session i).Told Φ A [])
    (h₀ : (w₀.session i).made = []) (hΦ : ∀ h s, Φ h s → ∀ σ, (db.exec s σ).2 = []) :
    (w.session i).made = [] := by
  rw [List.eq_nil_iff_forall_not_mem]
  intro x hx
  obtain ⟨n, y, v, htook, hmem⟩ := h.made h₀ x hx
  obtain ⟨hs, -, htold⟩ := htook.before.told hi
  rw [hΦ _ _ (htold.sends htook.sends)] at hmem
  cases hmem

end Transactions
