import Mathlib.Data.List.Nodup
import Mathlib.Data.List.Perm.Subperm

/-!
# Single-use tokens

A book of issued and spent tokens in which nothing is spent twice or before it is
issued. The two operations ask for what keeps the book in order, so every book
that can be built is in order.

## Key results

- `TokenBook.issue`, `TokenBook.spend`: the operations
- `TokenBook.length_spent_le`: no more tokens are spent than were issued
-/

/-- Tokens issued so far and, among them, those spent, oldest first. -/
structure TokenBook (α : Type*) where
  issued : List α
  spent : List α
  spent_nodup : spent.Nodup
  spent_subset : spent ⊆ issued

namespace TokenBook

variable {α : Type*}

/-- Nothing issued. -/
def empty : TokenBook α := ⟨[], [], List.nodup_nil, List.Subset.refl _⟩

/-- Issue a token. -/
def issue (book : TokenBook α) (token : α) : TokenBook α where
  issued := book.issued ++ [token]
  spent := book.spent
  spent_nodup := book.spent_nodup
  spent_subset := List.Subset.trans book.spent_subset (List.subset_append_left _ _)

/-- Spend a token that was issued and is not spent. -/
def spend (book : TokenBook α) (token : α) (hissued : token ∈ book.issued)
    (hunspent : token ∉ book.spent) : TokenBook α where
  issued := book.issued
  spent := book.spent ++ [token]
  spent_nodup := by
    refine List.nodup_append.mpr ⟨book.spent_nodup, List.nodup_singleton token, ?_⟩
    rintro a ha b hb rfl
    exact hunspent (List.mem_singleton.mp hb ▸ ha)
  spent_subset := List.append_subset.mpr ⟨book.spent_subset, by simpa using hissued⟩

/-- A token not yet issued is not spent. -/
theorem not_mem_spent (book : TokenBook α) {token : α} (h : token ∉ book.issued) :
    token ∉ book.spent :=
  fun hspent => h (book.spent_subset hspent)

/-- No more tokens are spent than were issued. -/
theorem length_spent_le (book : TokenBook α) : book.spent.length ≤ book.issued.length :=
  (book.spent_nodup.subperm book.spent_subset).length_le

end TokenBook
