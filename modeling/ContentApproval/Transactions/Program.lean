import Mathlib.Logic.Relation
import Mathlib.Data.List.Basic

/-!
# Programs of a transaction

A transaction is a program that sends its statements to the database one at a time
and looks at each reply before it goes on (`Prog`). Between two statements other
transactions may commit, so a program says nothing about the store by itself; it is
run against a `Database`.

* `Database`: what a statement replies and writes against a view of the store, which
  uncommitted writes it waits for, and which writes exclude one another. Writes stay
  with their transaction until it commits; `Database.view` is the committed store with
  the writes of one transaction applied.
* `Prog.run`: the program run without interference, with its result, its writes and
  the statements it sent.
* `Prog.serve`: a whole request without interference. A request is a program that ends
  in an answer and in the rest of its transaction, which runs after the answer was sent.
-/

namespace Transactions

/-- The program of a transaction: it returns, raises, or sends a statement and goes on
with the reply. -/
inductive Prog {Stmt : Type} (Reply : Stmt → Type) (ε α : Type) : Type
  | ret (a : α) : Prog Reply ε α
  | throw (e : ε) : Prog Reply ε α
  | exec (s : Stmt) (k : Reply s → Prog Reply ε α) : Prog Reply ε α

namespace Prog

variable {Stmt : Type} {Reply : Stmt → Type} {ε α β γ : Type}

def bind : Prog Reply ε α → (α → Prog Reply ε β) → Prog Reply ε β
  | .ret a, f => f a
  | .throw e, _ => .throw e
  | .exec s k, f => .exec s (fun r => (k r).bind f)

/-- `try p except e: handler e`. -/
def catchError : Prog Reply ε α → (ε → Prog Reply ε α) → Prog Reply ε α
  | .ret a, _ => .ret a
  | .throw e, h => h e
  | .exec s k, h => .exec s (fun r => (k r).catchError h)

instance : Monad (Prog Reply ε) where
  pure := .ret
  bind := bind

instance : MonadExceptOf ε (Prog Reply ε) where
  throw := .throw
  tryCatch := catchError

/-- Send one statement and return its reply. -/
def perform (s : Stmt) : Prog Reply ε (Reply s) := .exec s .ret

@[simp] theorem pure_eq (a : α) : (pure a : Prog Reply ε α) = .ret a := rfl

@[simp] theorem bind_eq (p : Prog Reply ε α) (f : α → Prog Reply ε β) : p >>= f = p.bind f := rfl

@[simp] theorem throw_eq (e : ε) : (MonadExcept.throw e : Prog Reply ε α) = .throw e := rfl

@[simp] theorem tryCatch_eq (p : Prog Reply ε α) (h : ε → Prog Reply ε α) :
    tryCatch p h = p.catchError h := rfl

@[simp] theorem bind_ret (p : Prog Reply ε α) : p.bind .ret = p := by
  induction p with
  | ret a => rfl
  | throw e => rfl
  | exec s k ih => simp only [bind, ih]

theorem bind_assoc (p : Prog Reply ε α) (f : α → Prog Reply ε β) (g : β → Prog Reply ε γ) :
    (p.bind f).bind g = p.bind (fun a => (f a).bind g) := by
  induction p with
  | ret a => rfl
  | throw e => rfl
  | exec s k ih => simp only [bind, ih]

instance : LawfulMonad (Prog Reply ε) :=
  LawfulMonad.mk' (Prog Reply ε) (fun p => bind_ret p) (fun _ _ => rfl) bind_assoc

/-- The program ends after at most `n` statements, whatever the replies, and what it then
returns satisfies `P`. -/
def Ends (P : α → Prop) : Nat → Prog Reply ε α → Prop
  | _, .ret a => P a
  | _, .throw _ => True
  | 0, .exec _ _ => False
  | n + 1, .exec _ k => ∀ r, (k r).Ends P n

/-- As long as the replies are as `G` says, the program sends only statements with `S`, and
what it returns satisfies `P`. -/
def Only (S : Stmt → Prop) (G : ∀ s, Reply s → Prop) (P : α → Prop) : Prog Reply ε α → Prop
  | .ret a => P a
  | .throw _ => True
  | .exec s k => S s ∧ ∀ r, G s r → (k r).Only S G P

theorem only_true (p : Prog Reply ε α) :
    p.Only (fun _ => True) (fun _ _ => True) (fun _ => True) := by
  induction p with
  | ret a => trivial
  | throw e => trivial
  | exec s k ih => exact ⟨trivial, fun r _ => ih r⟩

theorem Only.mono {S S' : Stmt → Prop} {G : ∀ s, Reply s → Prop} {P Q : α → Prop}
    {p : Prog Reply ε α} (h : p.Only S G P) (hS : ∀ s, S s → S' s) (hP : ∀ a, P a → Q a) :
    p.Only S' G Q := by
  induction p with
  | ret a => exact hP a h
  | throw e => trivial
  | exec s k ih => exact ⟨hS s h.1, fun r hr => ih r (h.2 r hr)⟩

theorem Only.bind {S : Stmt → Prop} {G : ∀ s, Reply s → Prop} {P : α → Prop} {Q : β → Prop}
    {p : Prog Reply ε α} {f : α → Prog Reply ε β} (h : p.Only S G P)
    (hf : ∀ a, P a → (f a).Only S G Q) : (p.bind f).Only S G Q := by
  induction p with
  | ret a => exact hf a h
  | throw e => trivial
  | exec s k ih => exact ⟨h.1, fun r hr => ih r (h.2 r hr)⟩

theorem Only.catchError {S : Stmt → Prop} {G : ∀ s, Reply s → Prop} {P : α → Prop}
    {p : Prog Reply ε α} {f : ε → Prog Reply ε α} (h : p.Only S G P)
    (hf : ∀ e, (f e).Only S G P) : (p.catchError f).Only S G P := by
  induction p with
  | ret a => exact h
  | throw e => exact hf e
  | exec s k ih => exact ⟨h.1, fun r hr => ih r (h.2 r hr)⟩

end Prog

/-- A database as its transactions see it. A statement reads the committed store with
the writes of its own transaction applied. -/
structure Database {Stmt : Type} (Reply : Stmt → Type) (Store Write : Type) where
  /-- The reply of a statement against a view, and the writes it adds. -/
  exec : (s : Stmt) → Store → Reply s × List Write
  /-- What a write does to a store. -/
  apply : Store → Write → Store
  /-- Two writes that two open transactions can not both hold. -/
  Conflict : Write → Write → Prop
  /-- The statement waits for the end of a transaction that holds this write. -/
  Waits : Stmt → Write → Prop
  /-- The writes of an open transaction still apply to the committed store. -/
  Held : List Write → Store → Prop
  conflict_symm : ∀ {w w'}, Conflict w w' → Conflict w' w
  waits_of_conflict : ∀ {s σ w w'}, w ∈ (exec s σ).2 → Conflict w w' → Waits s w'
  held_nil : ∀ σ, Held [] σ
  held_exec : ∀ {δ σ} s, Held δ σ → Held (δ ++ (exec s (δ.foldl apply σ)).2) σ
  held_commit : ∀ {δ δ' σ}, Held δ σ → Held δ' σ → (∀ w ∈ δ, ∀ w' ∈ δ', ¬ Conflict w w') →
    Held δ (δ'.foldl apply σ)

/-- What one run of a program did. -/
structure Outcome (Stmt Write ε α : Type) where
  result : Except ε α
  writes : List Write
  trace : List Stmt

/-- The program of a request: its answer, and the rest of its transaction, which runs
after the answer was sent. -/
abbrev Request {Stmt : Type} (Reply : Stmt → Type) (ε α : Type) : Type :=
  Prog Reply ε (α × Prog Reply ε Unit)

/-- Where a request stands. -/
inductive Session {Stmt : Type} (Reply : Stmt → Type) (Write ε α : Type) : Type
  /-- Not yet answered, with its uncommitted writes. -/
  | running (p : Request Reply ε α) (δ : List Write)
  /-- The answer was sent, the transaction is still open. -/
  | answered (a : α) (exit : Prog Reply ε Unit) (δ : List Write)
  | committed (a : α) (δ : List Write)
  /-- Rolled back by an exception before the answer. -/
  | failed (e : ε)
  /-- Rolled back from outside before the answer. -/
  | aborted
  /-- Rolled back after the answer was sent. -/
  | lost (a : α)

namespace Session

variable {Stmt : Type} {Reply : Stmt → Type} {Write ε α : Type}

/-- The writes the session holds uncommitted. -/
def writes : Session Reply Write ε α → List Write
  | running _ δ => δ
  | answered _ _ δ => δ
  | _ => []

/-- The answer its client holds. -/
def answer? : Session Reply Write ε α → Option α
  | answered a _ _ => some a
  | committed a _ => some a
  | lost a => some a
  | _ => none

/-- The session takes no further step. -/
def Finished : Session Reply Write ε α → Prop
  | running _ _ => False
  | answered _ _ _ => False
  | _ => True

end Session

namespace Database

variable {Stmt : Type} {Reply : Stmt → Type} {Store Write : Type} (db : Database Reply Store Write)

/-- The committed store with the writes of one transaction applied. -/
def view (σ : Store) (δ : List Write) : Store := δ.foldl db.apply σ

@[simp] theorem view_nil (σ : Store) : db.view σ [] = σ := rfl

@[simp] theorem view_cons (σ : Store) (w : Write) (δ : List Write) :
    db.view σ (w :: δ) = db.view (db.apply σ w) δ := rfl

theorem view_append (σ : Store) (δ δ' : List Write) :
    db.view σ (δ ++ δ') = db.view (db.view σ δ) δ' := List.foldl_append

/-- No write of `δ` excludes a write of `δ'`. -/
def Apart (δ δ' : List Write) : Prop := ∀ w ∈ δ, ∀ w' ∈ δ', ¬ db.Conflict w w'

variable {db}

theorem Apart.symm {δ δ' : List Write} (h : db.Apart δ δ') : db.Apart δ' δ :=
  fun w hw w' hw' hc => h w' hw' w hw (db.conflict_symm hc)

@[simp] theorem apart_nil (δ : List Write) : db.Apart [] δ := fun _ h => by cases h

theorem Apart.left {δ₁ δ₂ δ : List Write} (h : db.Apart (δ₁ ++ δ₂) δ) : db.Apart δ₁ δ :=
  fun w hw => h w (List.mem_append_left _ hw)

end Database

namespace Prog

variable {Stmt : Type} {Reply : Stmt → Type} {ε α β Store Write : Type}
  (db : Database Reply Store Write)

/-- The program run without interference, on top of the writes `δ`. -/
def run : Prog Reply ε α → Store → List Write → Outcome Stmt Write ε α
  | .ret a, _, δ => ⟨.ok a, δ, []⟩
  | .throw e, _, δ => ⟨.error e, δ, []⟩
  | .exec s k, σ, δ =>
    let reply := db.exec s (db.view σ δ)
    let rest := (k reply.1).run σ (δ ++ reply.2)
    ⟨rest.result, rest.writes, s :: rest.trace⟩

/-- A whole request without interference: the store after it, where its session ends,
and the statements it sent. -/
def serve (p : Request Reply ε α) (σ : Store) : Store × Session Reply Write ε α × List Stmt :=
  let body := p.run db σ []
  match body.result with
  | .error e => (σ, .failed e, body.trace)
  | .ok (a, exit) =>
    let last := exit.run db σ body.writes
    match last.result with
    | .error _ => (σ, .lost a, body.trace ++ last.trace)
    | .ok () => (db.view σ last.writes, .committed a last.writes, body.trace ++ last.trace)

theorem run_bind (p : Prog Reply ε α) (f : α → Prog Reply ε β) (σ : Store) (δ : List Write) :
    (p.bind f).run db σ δ =
      match p.run db σ δ with
      | ⟨.ok a, δ', t⟩ =>
        let rest := (f a).run db σ δ'
        ⟨rest.result, rest.writes, t ++ rest.trace⟩
      | ⟨.error e, δ', t⟩ => ⟨.error e, δ', t⟩ := by
  induction p generalizing δ with
  | ret a => rfl
  | throw e => rfl
  | exec s k ih =>
    simp only [bind, run, ih]
    rcases (k (db.exec s (db.view σ δ)).1).run db σ (δ ++ (db.exec s (db.view σ δ)).2) with
      ⟨_ | _, _, _⟩ <;> rfl

theorem run_catchError (p : Prog Reply ε α) (h : ε → Prog Reply ε α) (σ : Store)
    (δ : List Write) :
    (p.catchError h).run db σ δ =
      match p.run db σ δ with
      | ⟨.ok a, δ', t⟩ => ⟨.ok a, δ', t⟩
      | ⟨.error e, δ', t⟩ =>
        let rest := (h e).run db σ δ'
        ⟨rest.result, rest.writes, t ++ rest.trace⟩ := by
  induction p generalizing δ with
  | ret a => rfl
  | throw e => rfl
  | exec s k ih =>
    simp only [catchError, run, ih]
    rcases (k (db.exec s (db.view σ δ)).1).run db σ (δ ++ (db.exec s (db.view σ δ)).2) with
      ⟨_ | _, _, _⟩ <;> rfl

end Prog

end Transactions
