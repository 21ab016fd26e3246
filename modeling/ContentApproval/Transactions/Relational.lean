import ContentApproval.Transactions.Sequential

/-!
# Two runs side by side

`Prog.eval` is a run without interference as a function of the view it starts in, and
`Prog.transaction` the whole transaction of a request as one program. `Together` relates
two programs that are run on two views: where they end, and that what they sent looks the
same to an observer of some of the statements. There is one rule for each construct of a
program, and `Together.serve` draws the conclusion for two requests that are served.
-/

namespace Transactions

variable {Stmt : Type} {Reply : Stmt → Type} {ε α β γ κ Store Write ω : Type}
  {db : Database Reply Store Write}

/-! ## Runs on a view -/

namespace Prog

variable (db) in
/-- The program run on a view: its result, the view after it, and what it sent. -/
def eval : Prog Reply ε α → Store → Except ε α × Store × List Stmt
  | .ret a, v => (.ok a, v, [])
  | .throw e, v => (.error e, v, [])
  | .exec s k, v =>
    let reply := db.exec s v
    let rest := (k reply.1).eval (db.view v reply.2)
    (rest.1, rest.2.1, s :: rest.2.2)

variable (db) in
/-- A run is determined by the view it starts in. -/
theorem run_eq_eval (p : Prog Reply ε α) (σ : Store) (δ : List Write) :
    ((p.run db σ δ).result, db.view σ (p.run db σ δ).writes, (p.run db σ δ).trace) =
      p.eval db (db.view σ δ) := by
  induction p generalizing δ with
  | ret a => rfl
  | throw e => rfl
  | exec s k ih =>
    have hrest := ih (db.exec s (db.view σ δ)).1 (δ ++ (db.exec s (db.view σ δ)).2)
    rw [Database.view_append] at hrest
    simp only [run, eval, ← hrest]

/-- The program that goes on after the first one with this result. -/
def next (f : α → Prog Reply ε β) : Except ε α → Prog Reply ε β
  | .ok a => f a
  | .error e => .throw e

/-- The handler after the body of a `try` with this result. -/
def handle (h : ε → Prog Reply ε α) : Except ε α → Prog Reply ε α
  | .ok a => .ret a
  | .error e => h e

theorem eval_bind (p : Prog Reply ε α) (f : α → Prog Reply ε β) (v : Store) :
    (p.bind f).eval db v = (((next f (p.eval db v).1).eval db (p.eval db v).2.1).1,
      ((next f (p.eval db v).1).eval db (p.eval db v).2.1).2.1,
      (p.eval db v).2.2 ++ ((next f (p.eval db v).1).eval db (p.eval db v).2.1).2.2) := by
  induction p generalizing v with
  | ret a => rfl
  | throw e => rfl
  | exec s k ih => simp only [bind, eval, ih, List.cons_append]

theorem eval_catchError (p : Prog Reply ε α) (h : ε → Prog Reply ε α) (v : Store) :
    (p.catchError h).eval db v = (((handle h (p.eval db v).1).eval db (p.eval db v).2.1).1,
      ((handle h (p.eval db v).1).eval db (p.eval db v).2.1).2.1,
      (p.eval db v).2.2 ++ ((handle h (p.eval db v).1).eval db (p.eval db v).2.1).2.2) := by
  induction p generalizing v with
  | ret a => rfl
  | throw e => rfl
  | exec s k ih => simp only [catchError, eval, ih, List.cons_append]

/-- The whole transaction of a request. -/
def transaction (p : Request Reply ε α) : Prog Reply ε Unit := p.bind Prod.snd

/-- What a request that was served in `σ` has left there, when its transaction has ended so. -/
def left (σ : Store) : Except ε α → Store → Store
  | .ok _, v => v
  | .error _, _ => σ

theorem serve_eq_eval (p : Request Reply ε α) (σ : Store) :
    (p.serve db σ).1 = left σ (p.transaction.eval db σ).1 (p.transaction.eval db σ).2.1 ∧
      (p.serve db σ).2.2 = (p.transaction.eval db σ).2.2 := by
  have hbody := run_eq_eval db p σ []
  rw [Database.view_nil] at hbody
  unfold transaction serve
  rw [eval_bind, ← hbody]
  dsimp only
  cases (p.run db σ []).result with
  | error e => exact ⟨rfl, (List.append_nil _).symm⟩
  | ok r =>
    have hexit := run_eq_eval db r.2 σ (p.run db σ []).writes
    simp only [next, ← hexit]
    cases (r.2.run db σ (p.run db σ []).writes).result <;> exact ⟨rfl, rfl⟩

end Prog

/-! ## Responses -/

/-- What the client of a session that has ended was told. -/
def Session.response? : Session Reply Write ε α → Option (Except ε α)
  | .committed a _ => some (.ok a)
  | .lost a => some (.ok a)
  | .failed e => some (.error e)
  | _ => none

theorem Prog.response?_serve (p : Request Reply ε α) (σ : Store) :
    (p.serve db σ).2.1.response? = some ((p.eval db σ).1.map Prod.fst) := by
  have hbody := run_eq_eval db p σ []
  rw [Database.view_nil] at hbody
  unfold serve
  rw [← hbody]
  dsimp only
  cases (p.run db σ []).result with
  | error e => rfl
  | ok r =>
    dsimp only
    cases (r.2.run db σ (p.run db σ []).writes).result <;> rfl

/-! ## One program on two views -/

section Only

variable {S : Stmt → Prop} {G : ∀ s, Reply s → Prop} {P : α → Prop} {p : Prog Reply ε α}

/-- What every statement of the program keeps, the program keeps. -/
theorem Prog.Only.keeps (hp : p.Only S G P) {I : Store → Prop}
    (hI : ∀ s v, S s → I v → G s (db.exec s v).1 ∧ I (db.view v (db.exec s v).2)) {v : Store}
    (hv : I v) : I (p.eval db v).2.1 := by
  induction p generalizing v with
  | ret a => exact hv
  | throw e => exact hv
  | exec s k ih =>
    obtain ⟨hG, hrest⟩ := hI s v hp.1 hv
    exact ih _ (hp.2 _ hG) hrest

/-- If every statement of the program has the same reply on related views and keeps them
related, then so does the program. -/
theorem Prog.Only.eval_eq (hp : p.Only S G P) {R : Store → Store → Prop}
    (hR : ∀ s v v', S s → R v v' → G s (db.exec s v).1 ∧
      (db.exec s v).1 = (db.exec s v').1 ∧
      R (db.view v (db.exec s v).2) (db.view v' (db.exec s v').2)) {v v' : Store} (hv : R v v') :
    (p.eval db v).1 = (p.eval db v').1 ∧ R (p.eval db v).2.1 (p.eval db v').2.1 ∧
      (p.eval db v).2.2 = (p.eval db v').2.2 := by
  induction p generalizing v v' with
  | ret a => exact ⟨rfl, hv, rfl⟩
  | throw e => exact ⟨rfl, hv, rfl⟩
  | exec s k ih =>
    obtain ⟨hG, hreply, hrest⟩ := hR s v v' hp.1 hv
    have hk := ih _ (hp.2 _ hG) hrest
    simp only [eval, ← hreply]
    exact ⟨hk.1, hk.2.1, congrArg (List.cons s) hk.2.2⟩

/-- A program that writes nothing and sends nothing that is looked at. -/
theorem Prog.Only.quiet {look : Stmt → Option ω}
    (hS : ∀ s, S s → look s = none ∧ ∀ v, (db.exec s v).2 = [])
    (hp : p.Only S (fun _ _ => True) P) (v : Store) :
    (p.eval db v).2.1 = v ∧ (p.eval db v).2.2.filterMap look = [] ∧
      ∀ a, (p.eval db v).1 = .ok a → P a := by
  induction p with
  | ret a =>
    refine ⟨rfl, rfl, fun b hb => ?_⟩
    cases hb
    exact hp
  | throw e => exact ⟨rfl, rfl, fun b hb => by cases hb⟩
  | exec s k ih =>
    obtain ⟨hlook, hwrites⟩ := hS s hp.1
    have hk := ih _ (hp.2 (db.exec s v).1 trivial)
    simp only [eval, hwrites v, Database.view_nil, List.filterMap_cons, hlook]
    exact hk

end Only

/-! ## Two programs -/

/-- The programs end together with `Q`, and what they sent looks the same. -/
def Together (db : Database Reply Store Write) (look : Stmt → Option ω) (p : Prog Reply ε α)
    (v : Store) (q : Prog Reply ε β) (v' : Store)
    (Q : Except ε α → Store → Except ε β → Store → Prop) : Prop :=
  Q (p.eval db v).1 (p.eval db v).2.1 (q.eval db v').1 (q.eval db v').2.1 ∧
    (p.eval db v).2.2.filterMap look = (q.eval db v').2.2.filterMap look

namespace Together

variable {look : Stmt → Option ω} {v v' : Store}

theorem mono {p : Prog Reply ε α} {q : Prog Reply ε β}
    {Q Q' : Except ε α → Store → Except ε β → Store → Prop} (h : Together db look p v q v' Q)
    (hQ : ∀ {r u r' u'}, Q r u r' u' → Q' r u r' u') : Together db look p v q v' Q' :=
  ⟨hQ h.1, h.2⟩

/-- Neither of them sends anything any more. -/
theorem stop (r : Except ε α) (r' : Except ε β)
    {Q : Except ε α → Store → Except ε β → Store → Prop} (h : Q r v r' v') :
    Together db look (.stop r) v (.stop r') v' Q := by
  cases r <;> cases r' <;> exact ⟨h, rfl⟩

/-- Neither of them writes anything or sends anything that is looked at. -/
theorem only {S : Stmt → Prop} {P : α → Prop} {P' : β → Prop} {p : Prog Reply ε α}
    {q : Prog Reply ε β} {Q : Except ε α → Store → Except ε β → Store → Prop}
    (hS : ∀ s, S s → look s = none ∧ ∀ v, (db.exec s v).2 = [])
    (hp : p.Only S (fun _ _ => True) P) (hq : q.Only S (fun _ _ => True) P')
    (hQ : ∀ r r', (∀ a, r = .ok a → P a) → (∀ b, r' = .ok b → P' b) → Q r v r' v') :
    Together db look p v q v' Q := by
  obtain ⟨hpv, hpt, hpr⟩ := hp.quiet hS v
  obtain ⟨hqv, hqt, hqr⟩ := hq.quiet hS v'
  refine ⟨?_, hpt.trans hqt.symm⟩
  rw [hpv, hqv]
  exact hQ _ _ hpr hqr

/-- Both send a statement, the one like the other. -/
theorem exec {s s' : Stmt} {k : Reply s → Prog Reply ε α} {k' : Reply s' → Prog Reply ε β}
    {Q : Except ε α → Store → Except ε β → Store → Prop} (hlook : look s = look s')
    (h : Together db look (k (db.exec s v).1) (db.view v (db.exec s v).2)
      (k' (db.exec s' v').1) (db.view v' (db.exec s' v').2) Q) :
    Together db look (.exec s k) v (.exec s' k') v' Q := by
  refine ⟨h.1, ?_⟩
  simp only [Prog.eval, List.filterMap_cons, hlook, h.2]

/-- One after the other: the second programs go on from where the first ones end. -/
theorem bind {p : Prog Reply ε α} {q : Prog Reply ε β} {f : α → Prog Reply ε γ}
    {g : β → Prog Reply ε κ} {Q : Except ε γ → Store → Except ε κ → Store → Prop}
    (h : Together db look p v q v' (fun r u r' u' =>
      Together db look (Prog.next f r) u (Prog.next g r') u' Q)) :
    Together db look (p.bind f) v (q.bind g) v' Q := by
  unfold Together
  rw [Prog.eval_bind, Prog.eval_bind]
  exact ⟨h.1.1, by rw [List.filterMap_append, List.filterMap_append, h.2, h.1.2]⟩

theorem catchError {p : Prog Reply ε α} {q : Prog Reply ε β} {f : ε → Prog Reply ε α}
    {g : ε → Prog Reply ε β} {Q : Except ε α → Store → Except ε β → Store → Prop}
    (h : Together db look p v q v' (fun r u r' u' =>
      Together db look (Prog.handle f r) u (Prog.handle g r') u' Q)) :
    Together db look (p.catchError f) v (q.catchError g) v' Q := by
  unfold Together
  rw [Prog.eval_catchError, Prog.eval_catchError]
  exact ⟨h.1.1, by rw [List.filterMap_append, List.filterMap_append, h.2, h.1.2]⟩

/-- Two requests are served on two stores. -/
theorem serve {R : Store → Store → Prop} {p : Request Reply ε α} {q : Request Reply ε β}
    (h : Together db look p.transaction v q.transaction v' (fun r u r' u' =>
      R (Prog.left v r u) (Prog.left v' r' u'))) :
    R (p.serve db v).1 (q.serve db v').1 ∧
      (p.serve db v).2.2.filterMap look = (q.serve db v').2.2.filterMap look := by
  rw [(Prog.serve_eq_eval p v).1, (Prog.serve_eq_eval q v').1, (Prog.serve_eq_eval p v).2,
    (Prog.serve_eq_eval q v').2]
  exact h

end Together

end Transactions
