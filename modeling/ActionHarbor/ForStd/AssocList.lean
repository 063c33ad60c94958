import Mathlib.Data.List.Nodup
import Mathlib.Data.List.Perm.Subperm

/-!
# Association lists with distinct keys

Such a list is a finite map: `lookup` is membership, its order does not matter, and
one that binds all keys of another of the same length binds no other key.

## Key results

- `AssocList.lookup_eq_some_iff_mem`: `lookup` is membership
- `AssocList.lookup_perm`: `lookup` does not see the order
- `AssocList.keys_perm`: as many keys, all of them found
- `AssocList.eq_of_sorted`: sorted by key, the map has one list
-/

namespace AssocList

variable {α β γ : Type*} [BEq α] [LawfulBEq α]

/-- The keys in order. -/
abbrev keys (l : List (α × β)) : List α := l.map Prod.fst

/-- With distinct keys a lookup is a membership. -/
theorem lookup_eq_some_iff_mem {l : List (α × β)} (hl : (keys l).Nodup) {k : α} {v : β} :
    l.lookup k = some v ↔ (k, v) ∈ l := by
  induction l with
  | nil => simp
  | cons p l ih =>
    obtain ⟨k', v'⟩ := p
    obtain ⟨hhead, htail⟩ := List.nodup_cons.mp hl
    rw [List.lookup_cons, List.mem_cons]
    by_cases h : k = k'
    · subst h
      have hnot : (k, v) ∉ l := fun hmem => hhead (List.mem_map.mpr ⟨(k, v), hmem, rfl⟩)
      simp [hnot, eq_comm]
    · have hne : (k == k') = false := beq_false_of_ne h
      simp [hne, h, ih htail]

/-- A key of the list is bound to something. -/
theorem exists_lookup_of_mem_keys {l : List (α × β)} {k : α} (h : k ∈ keys l) :
    ∃ v, l.lookup k = some v := by
  rw [← Option.isSome_iff_exists, List.lookup_isSome_iff]
  obtain ⟨p, hp, hkey⟩ := List.mem_map.mp h
  exact ⟨p, hp, beq_iff_eq.mpr hkey.symm⟩

/-- What is bound is a key. -/
theorem mem_keys_of_lookup {l : List (α × β)} {k : α} {v : β} (h : l.lookup k = some v) :
    k ∈ keys l := by
  obtain ⟨pre, post, rfl, -⟩ := List.lookup_eq_some_iff.mp h
  simp [keys]

/-- Reordering distinct keys changes no lookup. -/
theorem lookup_perm {l l' : List (α × β)} (hperm : l.Perm l') (hl : (keys l).Nodup) (k : α) :
    l.lookup k = l'.lookup k := by
  have hl' : (keys l').Nodup := (hperm.map Prod.fst).nodup_iff.mp hl
  apply Option.ext
  intro v
  rw [lookup_eq_some_iff_mem hl, lookup_eq_some_iff_mem hl', hperm.mem_iff]

omit [LawfulBEq α] in
/-- Mapping the values of a list. -/
theorem lookup_map_values (l : List (α × β)) (f : β → γ) (k : α) :
    (l.map fun p => (p.1, f p.2)).lookup k = (l.lookup k).map f := by
  induction l with
  | nil => rfl
  | cons p l ih =>
    obtain ⟨k', v⟩ := p
    rw [List.map_cons, List.lookup_cons, List.lookup_cons]
    cases k == k' with
    | true => rfl
    | false => exact ih

omit [BEq α] [LawfulBEq α] in
/-- Distinct keys that are all among equally many others are those others. -/
theorem keys_perm {l : List (α × β)} {l' : List (α × γ)} (hl : (keys l).Nodup)
    (hlength : l.length = l'.length) (hsub : ∀ k ∈ keys l, k ∈ keys l') :
    (keys l).Perm (keys l') := by
  have hsubperm : (keys l).Subperm (keys l') := hl.subperm hsub
  exact hsubperm.perm_of_length_le (by simp [keys, hlength])

omit [BEq α] [LawfulBEq α] in
/-- Bindings of the same distinct keys that are all bindings of the other list are its
    bindings. -/
theorem perm_of_keys {l l' : List (α × β)} (hl : (keys l).Nodup) (hkeys : (keys l).Perm (keys l'))
    (hsub : ∀ k v, (k, v) ∈ l → (k, v) ∈ l') : l.Perm l' := by
  have hsubperm : l.Subperm l' := (hl.of_map Prod.fst).subperm fun p hp => hsub p.1 p.2 hp
  have hlength := hkeys.length_eq
  rw [List.length_map, List.length_map] at hlength
  exact hsubperm.perm_of_length_le (Nat.le_of_eq hlength.symm)

omit [BEq α] [LawfulBEq α] in
/-- Two orders of one finite map that are both sorted by key are one list. -/
theorem eq_of_sorted {le : α → α → Prop} (antisymm : ∀ a b, le a b → le b a → a = b)
    {l l' : List (α × β)} (hl : (keys l).Nodup) (hperm : l.Perm l')
    (hsorted : l.Pairwise fun p q => le p.1 q.1) (hsorted' : l'.Pairwise fun p q => le p.1 q.1) :
    l = l' := by
  refine hperm.eq_of_pairwise ?_ hsorted hsorted'
  intro p q hp hq hpq hqp
  exact List.inj_on_of_nodup_map hl hp (hperm.mem_iff.mpr hq) (antisymm _ _ hpq hqp)

end AssocList
