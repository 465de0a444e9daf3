import OuterApprox.Scalar

/-!
# Sparse vectors

Coefficients by variable index, in increasing order of index and with at most
one coefficient per index. Gradients and linearizations are sparse vectors.
The order is part of the type: whatever is built from a sparse vector does not
depend on the order in which its coefficients were given.

## Main definitions

* `SparseVector`: Index and coefficient pairs with increasing indices.
* `SparseVector.alter`: Change one coefficient; the others stay.
* `SparseVector.ofList`: The last coefficient given for an index wins.
* `SparseVector.collect`: Coefficients given for one index are added up.
* `SparseVector.mapValues`, `SparseVector.filter`: Change or drop coefficients.
* `SparseVector.dot`: The inner product with a point.

## Theorems

* `mem_alterEntries_key`: Altering an entry introduces no index but its own.
* `sorted_alterEntries`: Altering an entry keeps the indices increasing.
-/

namespace OuterApprox

/-- Coefficients by index, with increasing indices. -/
structure SparseVector (α : Type) where
  /-- Index and coefficient pairs. -/
  entries : List (Nat × α)
  /-- Indices increase. -/
  sorted : entries.Pairwise (fun p q => p.1 < q.1)

namespace SparseVector

variable {α : Type}

/-- The vector without coefficients. -/
def empty : SparseVector α := ⟨[], .nil⟩

instance : Inhabited (SparseVector α) := ⟨empty⟩

/-- Replace the coefficient at `i` by `f` of the present one, if any. -/
def alterEntries (i : Nat) (f : Option α → α) : List (Nat × α) → List (Nat × α)
  | [] => [(i, f none)]
  | (j, c) :: rest =>
    if i < j then (i, f none) :: (j, c) :: rest
    else if i = j then (i, f (some c)) :: rest
    else (j, c) :: alterEntries i f rest

theorem mem_alterEntries_key (i : Nat) (f : Option α → α) :
    ∀ (l : List (Nat × α)) (p : Nat × α), p ∈ alterEntries i f l → p.1 = i ∨ p ∈ l
  | [], p, h => by
    simp only [alterEntries, List.mem_singleton] at h
    exact .inl (by rw [h])
  | (j, c) :: rest, p, h => by
    simp only [alterEntries] at h
    split at h
    · rcases List.mem_cons.1 h with h | h
      · exact .inl (by rw [h])
      · exact .inr h
    · split at h
      · rcases List.mem_cons.1 h with h | h
        · exact .inl (by rw [h])
        · exact .inr (List.mem_cons_of_mem _ h)
      · rcases List.mem_cons.1 h with h | h
        · exact .inr (by rw [h]; exact List.mem_cons_self)
        · rcases mem_alterEntries_key i f rest p h with h | h
          · exact .inl h
          · exact .inr (List.mem_cons_of_mem _ h)

theorem sorted_alterEntries (i : Nat) (f : Option α → α) :
    ∀ l : List (Nat × α), l.Pairwise (fun p q => p.1 < q.1) →
      (alterEntries i f l).Pairwise (fun p q => p.1 < q.1)
  | [], _ => by simp [alterEntries]
  | (j, c) :: rest, h => by
    obtain ⟨hj, hrest⟩ := List.pairwise_cons.1 h
    simp only [alterEntries]
    split
    next hlt =>
      refine List.pairwise_cons.2 ⟨fun p hp => ?_, h⟩
      rcases List.mem_cons.1 hp with hp | hp
      · rw [hp]; exact hlt
      · exact Nat.lt_trans hlt (hj p hp)
    next hge =>
      split
      next heq =>
        subst heq
        exact List.pairwise_cons.2 ⟨hj, hrest⟩
      next hne =>
        refine List.pairwise_cons.2 ⟨fun p hp => ?_, sorted_alterEntries i f rest hrest⟩
        rcases mem_alterEntries_key i f rest p hp with hp | hp
        · rw [hp]; omega
        · exact hj p hp

/-- Replace the coefficient at `i` by `f` of the present one, if any. -/
def alter (v : SparseVector α) (i : Nat) (f : Option α → α) : SparseVector α :=
  ⟨alterEntries i f v.entries, sorted_alterEntries i f v.entries v.sorted⟩

/-- Set the coefficient at `i`. -/
def insert (v : SparseVector α) (i : Nat) (c : α) : SparseVector α :=
  v.alter i fun _ => c

/-- The vector of a list of coefficients; the last one given for an index
    wins. -/
def ofList (l : List (Nat × α)) : SparseVector α :=
  l.foldl (fun v p => v.insert p.1 p.2) empty

/-- Change every coefficient. -/
def mapValues (f : α → α) (v : SparseVector α) : SparseVector α :=
  ⟨v.entries.map fun p => (p.1, f p.2), by
    rw [List.pairwise_map]
    exact v.sorted⟩

/-- Keep the coefficients that pass a test. -/
def filter (keep : α → Bool) (v : SparseVector α) : SparseVector α :=
  ⟨v.entries.filter fun p => keep p.2, v.sorted.filter _⟩

variable [Scalar α]

/-- Add `c` to the coefficient at `i`, an absent one counting as zero. -/
def add (v : SparseVector α) (i : Nat) (c : α) : SparseVector α :=
  v.alter i fun old => old.getD 0.0 + c

/-- The vector of a list of coefficients, those of one index added up in the
    order given. -/
def collect (l : List (Nat × α)) : SparseVector α :=
  l.foldl (fun v p => v.add p.1 p.2) empty

/-- The inner product with a point. -/
def dot (v : SparseVector α) (x : Point α) : α :=
  Scalar.sum (v.entries.map fun p => p.2 * x.coord p.1)

end SparseVector

end OuterApprox
