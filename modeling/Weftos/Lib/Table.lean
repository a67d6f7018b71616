import Mathlib.Algebra.GroupWithZero.Nat
import Mathlib.Algebra.Order.BigOperators.Group.List
import Mathlib.Algebra.Order.Group.Nat
import Mathlib.Data.List.Nodup

/-! Tables as association lists: what a lookup finds after entries are inserted and removed,
and sums over the entries that count. -/

namespace Weftos.Lib.Table
open List

variable {κ ν : Type} [BEq κ] [LawfulBEq κ] {key : κ} {value : ν}

def remove (table : List (κ × ν)) (key : κ) : List (κ × ν) := table.filter (·.1 != key)

def insert (table : List (κ × ν)) (key : κ) (value : ν) : List (κ × ν) := remove table key ++ [(key, value)]

theorem mem_of_lookup {table : List (κ × ν)} (found : table.lookup key = some value) : (key, value) ∈ table := by
  obtain ⟨before, after, rfl, -⟩ := lookup_eq_some_iff.mp found
  exact mem_append_right before mem_cons_self

theorem lookup_filter {table : List (κ × ν)} {keep : κ × ν → Bool}
    (found : table.lookup key = some value) (kept : keep (key, value) = true) :
    (table.filter keep).lookup key = some value := by
  obtain ⟨before, after, rfl, others⟩ := lookup_eq_some_iff.mp found
  refine lookup_eq_some_iff.mpr ⟨before.filter keep, after.filter keep, ?_, ?_⟩
  · rw [filter_append, filter_cons_of_pos kept]
  · intro entry listed
    exact others entry (mem_filter.mp listed).1

section
variable (table : List (κ × ν))
include table

theorem lookup_filter_keys (keep : κ → Bool) (key : κ) :
    (table.filter fun e => keep e.1).lookup key = if keep key then table.lookup key else none := by
  induction table with
  | nil => simp
  | cons e table ih =>
    obtain ⟨k, v⟩ := e
    by_cases same : key = k
    · subst same
      cases kept : keep key with
      | true =>
        rw [filter_cons_of_pos (by simp [kept]), lookup_cons_self, lookup_cons_self]
        rfl
      | false =>
        rw [filter_cons_of_neg (by simp [kept]), ih, kept]
        rfl
    · have apart : (key == k) = false := by simpa using same
      rw [lookup_cons, apart]
      cases kept : keep k with
      | true =>
        rw [filter_cons_of_pos (by simp [kept]), lookup_cons, apart]
        exact ih
      | false =>
        rw [filter_cons_of_neg (by simp [kept])]
        exact ih

theorem lookup_remove_self (key : κ) : (remove table key).lookup key = none := by
  rw [lookup_eq_none_iff]
  intro entry listed
  have other : entry.1 ≠ key := by simpa using (mem_filter.mp listed).2
  simpa using other.symm

theorem lookup_remove_of_ne (differ : other ≠ key) : (remove table key).lookup other = table.lookup other := by
  cases found : table.lookup other with
  | some value => exact lookup_filter found (by simpa using differ)
  | none =>
    rw [lookup_eq_none_iff] at found ⊢
    intro entry listed
    exact found entry (mem_filter.mp listed).1

@[simp] theorem lookup_insert_self (key : κ) (value : ν) :
    (insert table key value).lookup key = some value := by
  simp [insert, lookup_append, lookup_remove_self]

theorem lookup_insert_other (value : ν) (differ : other ≠ key) :
    (insert table key value).lookup other = table.lookup other := by
  have apart : (other == key) = false := by simpa using differ
  rw [insert, lookup_append, lookup_remove_of_ne table differ]
  simp [lookup_cons, apart]

omit [LawfulBEq κ] in
theorem lookup_mapValues {μ : Type} (f : ν → μ) (key : κ) :
    (table.map fun entry => (entry.1, f entry.2)).lookup key = (table.lookup key).map f := by
  induction table with
  | nil => rfl
  | cons entry table ih =>
    rw [map_cons, lookup_cons, lookup_cons, ih]
    cases key == entry.1 <;> rfl

end

theorem lookup_insert_of_ne (value : ν)
    (found : table.lookup other = some old) (differ : other ≠ key) : (insert table key value).lookup other = some old :=
  (lookup_insert_other table value differ).trans found

theorem perm_remove {table : List (κ × ν)} (distinct : (table.map (·.1)).Nodup)
    (found : table.lookup key = some value) : table.Perm ((key, value) :: remove table key) := by
  obtain ⟨before, after, rfl, -⟩ := lookup_eq_some_iff.mp found
  rw [map_append, map_cons] at distinct
  have away := perm_middle.nodup_iff.mp distinct
  have others : ∀ entry ∈ before ++ after, (entry.1 != key) = true := by
    intro entry listed
    rw [bne_iff_ne]
    rintro rfl
    rw [← map_append] at away
    exact (nodup_cons.mp away).1 (mem_map.mpr ⟨entry, listed, rfl⟩)
  have rest : remove (before ++ (key, value) :: after) key = before ++ after := by
    rw [remove, filter_append, filter_cons_of_neg (by simp), ← filter_append]
    exact filter_eq_self.mpr others
  rw [rest]
  exact perm_middle

theorem insert_fresh (value : ν) (fresh : ∀ entry ∈ table, entry.1 ≠ key) :
    insert table key value = table ++ [(key, value)] := by
  rw [insert, remove, filter_eq_self.mpr]
  intro entry listed
  simpa using fresh entry listed

theorem lookup_of_mem {table : List (κ × ν)} (distinct : (table.map (·.1)).Nodup)
    (listed : (key, value) ∈ table) : table.lookup key = some value := by
  obtain ⟨before, after, rfl⟩ := append_of_mem listed
  refine lookup_eq_some_iff.mpr ⟨before, after, rfl, ?_⟩
  intro entry earlier
  rw [map_append, nodup_append] at distinct
  have apart := distinct.2.2 entry.1 (mem_map_of_mem earlier) key (by simp)
  simpa using apart.symm

omit [BEq κ] [LawfulBEq κ] in
theorem nodup_filter {table : List (κ × ν)} (distinct : (table.map (·.1)).Nodup) (keep : κ × ν → Bool) :
    ((table.filter keep).map (·.1)).Nodup := distinct.sublist (filter_sublist.map _)

theorem nodup_insert (distinct : (table.map (·.1)).Nodup) (key : κ) (value : ν) :
    ((insert table key value).map (·.1)).Nodup := by
  rw [insert, map_append, nodup_append]
  refine ⟨nodup_filter distinct _, nodup_singleton key, ?_⟩
  intro other listed same here
  obtain ⟨entry, kept, rfl⟩ := mem_map.mp listed
  obtain rfl : same = key := by simpa using here
  simpa using (mem_filter.mp kept).2

def modify (table : List (κ × ν)) (key : κ) (change : ν → ν) : List (κ × ν) :=
  table.map fun entry => if entry.1 == key then (entry.1, change entry.2) else entry

theorem lookup_modify (table : List (κ × ν)) (key other : κ) (change : ν → ν) :
    (modify table key change).lookup other =
      if other == key then (table.lookup other).map change else table.lookup other := by
  induction table with
  | nil => simp [modify]
  | cons entry table ih =>
    have first : modify (entry :: table) key change =
        (if entry.1 == key then (entry.1, change entry.2) else entry) :: modify table key change := rfl
    have name : (if entry.1 == key then (entry.1, change entry.2) else entry).1 = entry.1 := by split <;> rfl
    rw [first, lookup_cons, name, lookup_cons, ih]
    by_cases asked : other = entry.1
    · rw [asked, beq_self_eq_true]
      cases entry.1 == key <;> rfl
    · rw [beq_eq_false_iff_ne.mpr asked]

omit [LawfulBEq κ] in
@[simp] theorem modify_keys (table : List (κ × ν)) (key : κ) (change : ν → ν) :
    (modify table key change).map (·.1) = table.map (·.1) := by
  rw [modify, map_map]
  apply map_congr_left
  intro entry _
  rw [Function.comp_apply]
  split <;> rfl

/-! ### Sums over the entries that count -/

section
variable (counts : ν → Bool) (weight : ν → Nat)

def tally (table : List (κ × ν)) : Nat := ((table.filter fun e => counts e.2).map fun e => weight e.2).sum

variable {counts weight}

omit [BEq κ] [LawfulBEq κ] in
theorem tally_append (first second : List (κ × ν)) :
    tally counts weight (first ++ second) = tally counts weight first + tally counts weight second := by
  rw [tally, filter_append, map_append, sum_append]
  rfl

omit [BEq κ] [LawfulBEq κ] in
theorem tally_cons (key : κ) (value : ν) (table : List (κ × ν)) :
    tally counts weight ((key, value) :: table) =
      (if counts value then weight value else 0) + tally counts weight table := by
  by_cases counted : counts value <;> simp [tally, counted]

omit [BEq κ] [LawfulBEq κ] in
theorem tally_filter_le (table : List (κ × ν)) (keep : κ × ν → Bool) :
    tally counts weight (table.filter keep) ≤ tally counts weight table := by
  have fewer : ((table.filter keep).filter fun e => counts e.2).Sublist (table.filter fun e => counts e.2) :=
    filter_sublist.filter _
  exact (fewer.map _).sum_le_sum fun _ _ => Nat.zero_le _

omit [BEq κ] [LawfulBEq κ] in
theorem tally_le_all (table : List (κ × ν)) : tally counts weight table ≤ tally (fun _ => true) weight table := by
  have all : (table.filter fun e => counts e.2).Sublist (table.filter fun _ => true) := by
    rw [filter_true]
    exact filter_sublist
  exact (all.map _).sum_le_sum fun _ _ => Nat.zero_le _

theorem tally_remove_found (found : table.lookup key = some value) :
    tally counts weight (remove table key) + (if counts value then weight value else 0) ≤
      tally counts weight table := by
  obtain ⟨before, after, rfl, -⟩ := lookup_eq_some_iff.mp found
  have rest : remove (before ++ (key, value) :: after) key = remove before key ++ remove after key := by
    rw [remove, filter_append, filter_cons_of_neg (by simp)]
    rfl
  have front : tally counts weight (remove before key) ≤ tally counts weight before := tally_filter_le _ _
  have back : tally counts weight (remove after key) ≤ tally counts weight after := tally_filter_le _ _
  rw [rest, tally_append, tally_append, tally_cons]
  omega

omit [LawfulBEq κ] in
theorem tally_insert (table : List (κ × ν)) (key : κ) (value : ν) :
    tally counts weight (insert table key value) =
      tally counts weight (remove table key) + (if counts value then weight value else 0) := by
  rw [insert, tally_append, tally_cons]
  rfl

omit [LawfulBEq κ] in
theorem tally_insert_le (table : List (κ × ν)) (key : κ) (value : ν) :
    tally counts weight (insert table key value) ≤
      tally counts weight table + (if counts value then weight value else 0) := by
  rw [tally_insert]
  exact Nat.add_le_add_right (tally_filter_le _ _) _

theorem tally_replace_le (value : ν) (found : table.lookup key = some old)
    (same : counts value = counts old) (alike : weight value = weight old) :
    tally counts weight (insert table key value) ≤ tally counts weight table := by
  rw [tally_insert, same, alike]
  exact tally_remove_found found

end

end Weftos.Lib.Table
