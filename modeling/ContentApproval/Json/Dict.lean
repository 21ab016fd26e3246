import Mathlib.Data.List.Basic

/-!
# Dictionaries

A dictionary with string keys in insertion order, as Python has them: an assignment to a
key that is there keeps its place. `get?_set` and `get?_update` say what a lookup gives
after an assignment and after an update by another dictionary.
-/

/-- A dictionary: its entries have different keys. -/
structure Dict (Value : Type) where
  entries : List (String × Value)
  nodup : (entries.map Prod.fst).Nodup

namespace Dict

variable {Value : Type}

def empty : Dict Value := ⟨[], List.nodup_nil⟩

/-- `d.get(key)` -/
def get? (d : Dict Value) (key : String) : Option Value := d.entries.lookup key

@[simp] theorem get?_empty (key : String) : (empty : Dict Value).get? key = none := rfl

/-- The entries after `d[key] = value`. -/
def setEntry (key : String) (value : Value) : List (String × Value) → List (String × Value)
  | [] => [(key, value)]
  | (k, v) :: es => if k = key then (k, value) :: es else (k, v) :: setEntry key value es

theorem mem_keys_setEntry {key : String} {value : Value} {es : List (String × Value)} {k : String} :
    k ∈ (setEntry key value es).map Prod.fst ↔ k = key ∨ k ∈ es.map Prod.fst := by
  induction es with
  | nil => simp [setEntry]
  | cons e es ih =>
    obtain ⟨l, v⟩ := e
    unfold setEntry
    split_ifs with hl
    · subst hl
      simp
    · rw [List.map_cons, List.mem_cons, ih, List.map_cons, List.mem_cons]
      exact or_left_comm

theorem nodup_setEntry (key : String) (value : Value) {es : List (String × Value)}
    (h : (es.map Prod.fst).Nodup) : ((setEntry key value es).map Prod.fst).Nodup := by
  induction es with
  | nil => simp [setEntry]
  | cons e es ih =>
    obtain ⟨l, v⟩ := e
    obtain ⟨hl, hes⟩ := List.nodup_cons.mp h
    unfold setEntry
    split_ifs with hkey
    · exact h
    · refine List.nodup_cons.mpr ⟨fun hmem => ?_, ih hes⟩
      exact (mem_keys_setEntry.mp hmem).elim hkey hl

/-- `d[key] = value` -/
def set (d : Dict Value) (key : String) (value : Value) : Dict Value :=
  ⟨setEntry key value d.entries, nodup_setEntry key value d.nodup⟩

theorem get?_set (d : Dict Value) (key : String) (value : Value) (k : String) :
    (d.set key value).get? k = if k = key then some value else d.get? k := by
  obtain ⟨es, hes⟩ := d
  change (setEntry key value es).lookup k = if k = key then some value else es.lookup k
  induction es with
  | nil =>
    rw [setEntry, List.lookup_cons]
    split_ifs with hk
    · rw [hk, beq_self_eq_true]
    · rw [beq_false_of_ne hk]
  | cons e es ih =>
    obtain ⟨l, v⟩ := e
    have htail := ih (List.nodup_cons.mp hes).2
    unfold setEntry
    split_ifs with hl hk hk
    · rw [hk, ← hl, List.lookup_cons, beq_self_eq_true]
    · rw [List.lookup_cons, List.lookup_cons, beq_false_of_ne (hl ▸ hk)]
    · have hkl : k ≠ l := fun h => hl (h ▸ hk)
      rw [List.lookup_cons, beq_false_of_ne hkl]
      exact htail.trans (if_pos hk)
    · rw [List.lookup_cons, htail, if_neg hk, List.lookup_cons]

@[simp] theorem get?_set_self (d : Dict Value) (key : String) (value : Value) :
    (d.set key value).get? key = some value := by
  rw [get?_set, if_pos rfl]

theorem get?_set_ne (d : Dict Value) {key k : String} (value : Value) (h : k ≠ key) :
    (d.set key value).get? k = d.get? k := by
  rw [get?_set, if_neg h]

/-- `d.update(other)` -/
def update (d other : Dict Value) : Dict Value :=
  other.entries.foldl (fun d e => d.set e.1 e.2) d

/-- After an update the other dictionary comes first. -/
theorem get?_update (d other : Dict Value) (k : String) :
    (d.update other).get? k = (other.get? k).or (d.get? k) := by
  obtain ⟨es, hes⟩ := other
  change (es.foldl (fun d e => d.set e.1 e.2) d).get? k = (es.lookup k).or (d.get? k)
  induction es generalizing d with
  | nil => rfl
  | cons e es ih =>
    obtain ⟨l, v⟩ := e
    obtain ⟨hl, hes⟩ := List.nodup_cons.mp hes
    rw [List.foldl_cons, ih _ hes, get?_set, List.lookup_cons]
    split_ifs with hk
    · -- the key does not come again
      have hnone : es.lookup l = none := by
        rw [List.lookup_eq_none_iff]
        rintro ⟨m, w⟩ he
        refine bne_iff_ne.mpr fun (heq : l = m) => hl ?_
        exact List.mem_map.mpr ⟨(m, w), he, heq.symm⟩
      rw [hk, beq_self_eq_true, hnone, Option.none_or, Option.some_or]
    · rw [beq_false_of_ne hk]

section Entries

variable {P : Value → Prop}

theorem forall_setEntry {key : String} {value : Value} (hv : P value)
    {es : List (String × Value)} (h : ∀ e ∈ es, P e.2) : ∀ e ∈ setEntry key value es, P e.2 := by
  induction es with
  | nil => simpa [setEntry] using hv
  | cons e es ih =>
    obtain ⟨l, v⟩ := e
    obtain ⟨hl, hes⟩ := List.forall_mem_cons.mp h
    unfold setEntry
    split_ifs
    · exact List.forall_mem_cons.mpr ⟨hv, hes⟩
    · exact List.forall_mem_cons.mpr ⟨hl, ih hes⟩

/-- What holds of all values holds of them after an assignment of such a value. -/
theorem forall_set {d : Dict Value} (h : ∀ e ∈ d.entries, P e.2) (key : String) {value : Value}
    (hv : P value) : ∀ e ∈ (d.set key value).entries, P e.2 :=
  forall_setEntry hv h

theorem forall_foldl_set {es : List (String × Value)} (hes : ∀ e ∈ es, P e.2) {d : Dict Value}
    (h : ∀ e ∈ d.entries, P e.2) :
    ∀ e ∈ (es.foldl (fun d e => d.set e.1 e.2) d).entries, P e.2 := by
  induction es generalizing d with
  | nil => exact h
  | cons e es ih =>
    obtain ⟨he, hes⟩ := List.forall_mem_cons.mp hes
    exact ih hes (forall_set h e.1 he)

theorem forall_update {d other : Dict Value} (h : ∀ e ∈ d.entries, P e.2)
    (hother : ∀ e ∈ other.entries, P e.2) : ∀ e ∈ (d.update other).entries, P e.2 :=
  forall_foldl_set hother h

end Entries

/-- `{k: f(k, v) for k, v in d.items()}` -/
def mapValues (f : String → Value → Value) (d : Dict Value) : Dict Value :=
  ⟨d.entries.map (fun e => (e.1, f e.1 e.2)), by
    rw [List.map_map]
    exact d.nodup⟩

theorem get?_mapValues (f : String → Value → Value) (d : Dict Value) (k : String) :
    (d.mapValues f).get? k = (d.get? k).map (f k) := by
  obtain ⟨es, hes⟩ := d
  change (es.map (fun e => (e.1, f e.1 e.2))).lookup k = (es.lookup k).map (f k)
  induction es with
  | nil => rfl
  | cons e es ih =>
    rw [List.map_cons, List.lookup_cons, List.lookup_cons, ih (List.nodup_cons.mp hes).2]
    by_cases hk : k = e.1
    · rw [hk, beq_self_eq_true, Option.map_some]
    · rw [beq_false_of_ne hk]

/-- The dictionary with these entries, the last one of each key. -/
def ofList (entries : List (String × Value)) : Dict Value :=
  entries.foldl (fun d e => d.set e.1 e.2) empty

end Dict
