import OuterApprox.Cut.Hyperplane

/-!
# No-good cuts

A row that forbids a set of binaries to be one all at once: their sum is at most
one less than their number. Listed binaries may repeat and come in any order.

## Main definitions

* `distinctIncreasing`: The members of a list, once each, in increasing order.
* `noGoodRow`: The row, if the set is not empty and its columns exist.

## Theorems

* `distinctIncreasing_pairwise`: The members come out strictly increasing.
-/

namespace OuterApprox

/-- Insert into an increasing list, unless present. -/
def insertIncreasing (i : Nat) : List Nat → List Nat
  | [] => [i]
  | j :: rest =>
    if i < j then i :: j :: rest
    else if i = j then j :: rest
    else j :: insertIncreasing i rest

theorem mem_insertIncreasing (i k : Nat) :
    ∀ l : List Nat, k ∈ insertIncreasing i l ↔ k = i ∨ k ∈ l
  | [] => by simp [insertIncreasing]
  | j :: rest => by
    have ih := mem_insertIncreasing i k rest
    simp only [insertIncreasing]
    split
    · simp
    · split
      next h => subst h; simp
      next => simp only [List.mem_cons, ih]; grind

theorem insertIncreasing_pairwise (i : Nat) :
    ∀ l : List Nat, l.Pairwise (· < ·) → (insertIncreasing i l).Pairwise (· < ·)
  | [], _ => by simp [insertIncreasing]
  | j :: rest, h => by
    obtain ⟨hj, hrest⟩ := List.pairwise_cons.1 h
    simp only [insertIncreasing]
    split
    next hlt =>
      refine List.pairwise_cons.2 ⟨fun k hk => ?_, h⟩
      rcases List.mem_cons.1 hk with hk | hk
      · rw [hk]; exact hlt
      · exact Nat.lt_trans hlt (hj k hk)
    next =>
      split
      · exact h
      next =>
        refine List.pairwise_cons.2 ⟨fun k hk => ?_, insertIncreasing_pairwise i rest hrest⟩
        rcases (mem_insertIncreasing i k rest).1 hk with hk | hk
        · omega
        · exact hj k hk

/-- The members of a list, once each, in increasing order. -/
def distinctIncreasing (l : List Nat) : List Nat := l.foldr insertIncreasing []

theorem distinctIncreasing_pairwise :
    ∀ l : List Nat, (distinctIncreasing l).Pairwise (· < ·)
  | [] => by simp [distinctIncreasing]
  | i :: rest => insertIncreasing_pairwise i _ (distinctIncreasing_pairwise rest)

/-- The row that forbids the listed binaries to be one all at once, among `n`
    columns. There is none for an empty list or a column that does not exist; the
    columns are in order, so only the last one is looked at. -/
def noGoodRow {α : Type} [Scalar α] (n : Nat) (indices : List Nat) : Option (Row α) :=
  let members := distinctIncreasing indices
  if members.isEmpty || members.getLast?.any (n ≤ ·) then none
  else some {
    dimension := n
    terms := members.map fun i => (i, 1.0)
    upper := Scalar.ofNat (members.length - 1) }

end OuterApprox
