import Mathlib.Data.List.Basic
import Mathlib.Data.List.Induction
import SentenceForge.Table

/-!
# What a table lists

A table that is filled from a list has its keys in the order in which they
first occur there, whatever is put under them: a key that comes again is
put in its place. So a group lists the keys in that order, each with the
values of the elements that have it, and nothing of the tree behind the
table is seen.
-/

namespace SentenceForge

namespace Table

variable {κ ν α : Type} [Ord κ] [Std.TransOrd κ] [Std.LawfulEqOrd κ] [BEq κ] [LawfulBEq κ]

/-- **A table has its keys in the order in which they were first put.** -/
theorem keys_foldl_put (key : α → κ) (value : Table κ ν → α → ν) (xs : List α) :
    (xs.foldl (fun t x => t.put (key x) (value t x)) empty).keys = (xs.map key).eraseDups := by
  induction xs using List.reverseRecOn with
  | nil => rfl
  | append_singleton xs x ih =>
    rw [List.foldl_append, List.map_append, List.eraseDups_append, ← ih]
    -- whether the key is there is read off the keys, which are known
    have hhas := Table.mem_keys (xs.foldl (fun t x => t.put (key x) (value t x)) empty) (key x)
    rw [ih, List.mem_eraseDups] at hhas
    cases h : (xs.foldl (fun t x => t.put (key x) (value t x)) empty).has (key x) with
    | true =>
      have hmem : key x ∈ xs.map key := hhas.2 h
      show (Table.put _ _ _).keys = _
      rw [keys_put_of_has _ h]
      simp [List.cons_removeAll, hmem]
    | false =>
      have hmem : key x ∉ xs.map key := fun hm => by
        rw [hhas, h] at hm
        exact Bool.false_ne_true hm
      show (Table.put _ _ _).keys = _
      rw [keys_put_of_not_has _ h]
      simp [List.cons_removeAll, List.eraseDups_cons, hmem]

/-- A group has the keys of the elements, each once, in the order in which they
first occur. -/
theorem keys_group (key : α → κ) (value : α → ν) (xs : List α) :
    (group key value xs).keys = (xs.map key).eraseDups :=
  keys_foldl_put key (fun t x => value x :: (t.get? (key x)).getD []) xs

/-- **A group lists its keys in the order in which they first occur**,
each with the values of the elements that have it. -/
theorem toList_group [DecidableEq κ] (key : α → κ) (value : α → ν) (xs : List α) :
    (group key value xs).toList
      = (xs.map key).eraseDups.map fun k => (k, (xs.filter (key · = k)).map value) := by
  have hkeys := keys_group key value xs
  have hget : ∀ k ∈ (xs.map key).eraseDups,
      (group key value xs).get? k = some ((xs.filter (key · = k)).map value) := by
    intro k hk
    rw [← hkeys, mem_keys, has_eq_isSome, Option.isSome_iff_exists] at hk
    obtain ⟨vs, hvs⟩ := hk
    have hvalues := getD_get?_group key value xs k
    rw [hvs, Option.getD_some] at hvalues
    rw [hvs, hvalues]
  rw [toList, hkeys]
  refine (List.filterMap_congr fun k hk => ?_).trans (congrFun List.filterMap_eq_map' _)
  rw [hget k hk, Option.map_some]

end Table

end SentenceForge
