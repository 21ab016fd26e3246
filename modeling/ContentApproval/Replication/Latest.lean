import Mathlib.Data.List.Induction
import Mathlib.Order.Lattice

/-!
# Replicas that keep the latest notice

A replica is told notices, each about one key and with a rank. For each key it keeps the notice of
the highest rank (`replica`). If two notices about one key with one rank are always the same notice
(`Coherent`), then what a replica knows depends only on which notices it was told, not on their
order and not on how often (`replica_congr`).
-/

namespace Replication

variable {ν κ ρ : Type} [DecidableEq κ] [LinearOrder ρ] (key : ν → κ) (rank : ν → ρ)

/-- The notice that is kept when `n` comes in. -/
def later : Option ν → ν → ν
  | none, n => n
  | some m, n => if rank n < rank m then m else n

def receive (known : κ → Option ν) (n : ν) : κ → Option ν :=
  Function.update known (key n) (some (later rank (known (key n)) n))

/-- What a replica knows that was told these notices, one after the other. -/
def replica (ns : List ν) : κ → Option ν := ns.foldl (receive key rank) fun _ => none

/-- Nothing that was told about the key of the notice has a higher rank. -/
structure Latest (ns : List ν) (n : ν) : Prop where
  mem : n ∈ ns
  le : ∀ m ∈ ns, key m = key n → rank m ≤ rank n

/-- What there is to know about a key. -/
def Known (ns : List ν) (k : κ) : Option ν → Prop
  | none => ∀ n ∈ ns, key n ≠ k
  | some n => key n = k ∧ Latest key rank ns n

/-- Notices about one key with one rank are one notice. -/
def Coherent (ns : List ν) : Prop :=
  ∀ m ∈ ns, ∀ n ∈ ns, key m = key n → rank m = rank n → m = n

variable {key rank} {ns ms : List ν} {n : ν} {k : κ}

theorem replica_snoc (ns : List ν) (n : ν) :
    replica key rank (ns ++ [n]) = receive key rank (replica key rank ns) n :=
  List.foldl_append

omit [DecidableEq κ] in
/-- A notice that is about another key changes nothing. -/
theorem Known.other {n? : Option ν} (h : Known key rank ns k n?) {m : ν} (hm : key m ≠ k) :
    Known key rank (ns ++ [m]) k n? := by
  cases n? with
  | none =>
    intro n hn
    rcases List.mem_append.mp hn with hn | hn
    · exact h n hn
    · rwa [List.mem_singleton.mp hn]
  | some n =>
    obtain ⟨rfl, hlatest⟩ := h
    refine ⟨rfl, List.mem_append_left _ hlatest.mem, fun x hx hkey => ?_⟩
    rcases List.mem_append.mp hx with hx | hx
    · exact hlatest.le x hx hkey
    · rw [List.mem_singleton.mp hx] at hkey
      exact absurd hkey hm

omit [DecidableEq κ] in
theorem Known.later {m : ν} {n? : Option ν} (h : Known key rank ns (key m) n?) :
    Known key rank (ns ++ [m]) (key m) (some (later rank n? m)) := by
  have hmem : m ∈ ns ++ [m] := List.mem_append_right _ List.mem_cons_self
  cases n? with
  | none =>
    refine ⟨rfl, hmem, fun x hx hkey => ?_⟩
    rcases List.mem_append.mp hx with hx | hx
    · exact absurd hkey (h x hx)
    · exact le_of_eq (congrArg rank (List.mem_singleton.mp hx))
  | some n =>
    obtain ⟨hkey, hlatest⟩ := h
    simp only [Replication.later]
    split_ifs with hlt
    · refine ⟨hkey, List.mem_append_left _ hlatest.mem, fun x hx hx' => ?_⟩
      rcases List.mem_append.mp hx with hx | hx
      · exact hlatest.le x hx hx'
      · rw [List.mem_singleton.mp hx]
        exact le_of_lt hlt
    · refine ⟨rfl, hmem, fun x hx hx' => ?_⟩
      rcases List.mem_append.mp hx with hx | hx
      · exact le_trans (hlatest.le x hx (hx'.trans hkey.symm)) (not_lt.mp hlt)
      · exact le_of_eq (congrArg rank (List.mem_singleton.mp hx))

variable (key rank) in
/-- A replica knows what there is to know. -/
theorem known_replica (ns : List ν) (k : κ) : Known key rank ns k (replica key rank ns k) := by
  induction ns using List.reverseRecOn with
  | nil => exact fun n hn => by cases hn
  | append_singleton ns m ih =>
    rw [replica_snoc, receive]
    by_cases hk : key m = k
    · subst hk
      rw [Function.update_self]
      exact ih.later
    · rw [Function.update_of_ne (Ne.symm hk)]
      exact ih.other hk

theorem latest_of_replica (h : replica key rank ns k = some n) :
    key n = k ∧ Latest key rank ns n := by
  have hknown := known_replica key rank ns k
  rwa [h] at hknown

theorem replica_eq_none (h : ∀ n ∈ ns, key n ≠ k) : replica key rank ns k = none := by
  cases hr : replica key rank ns k with
  | none => rfl
  | some n =>
    obtain ⟨hkey, hlatest⟩ := latest_of_replica hr
    exact absurd hkey (h n hlatest.mem)

omit [DecidableEq κ] in
theorem Latest.unique {m : ν} (hns : Coherent key rank ns) (h : Latest key rank ns n)
    (h' : Latest key rank ns m) (hkey : key m = key n) : m = n :=
  hns m h'.mem n h.mem hkey (le_antisymm (h.le m h'.mem hkey) (h'.le n h.mem hkey.symm))

/-- **A replica of coherent notices knows the latest ones.** -/
theorem Latest.replica_eq (hns : Coherent key rank ns) (h : Latest key rank ns n) :
    replica key rank ns (key n) = some n := by
  have hknown := known_replica key rank ns (key n)
  cases hr : replica key rank ns (key n) with
  | none =>
    rw [hr] at hknown
    exact absurd rfl (hknown n h.mem)
  | some m =>
    rw [hr] at hknown
    rw [h.unique hns hknown.2 hknown.1]

/-- **Order and repetition make no difference.** -/
theorem replica_congr (hns : Coherent key rank ns) (hmem : ∀ n, n ∈ ms ↔ n ∈ ns) :
    replica key rank ms = replica key rank ns := by
  funext k
  have hknown := known_replica key rank ms k
  cases hr : replica key rank ms k with
  | none =>
    rw [hr] at hknown
    exact (replica_eq_none fun n hn => hknown n ((hmem n).mpr hn)).symm
  | some n =>
    rw [hr] at hknown
    obtain ⟨rfl, hlatest⟩ := hknown
    have hlatest' : Latest key rank ns n :=
      ⟨(hmem n).mp hlatest.mem, fun m hm => hlatest.le m ((hmem m).mpr hm)⟩
    exact (hlatest'.replica_eq hns).symm

end Replication
