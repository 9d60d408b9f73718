/-
SelfTyped.Proofs.EditDistance — the rows compute the least number of edits.

`leastEdits` is the recursion that the rows stand for: the last step deletes
the first character, inserts one in front, or keeps or replaces it.  That it
is attained is shown along the recursion.  That no fewer edits do is shown
edit by edit: an edit changes the distance to a third text by at most one,
wherever it is made (`Edit.leastEdits_le`).

The rows are about prefixes, so they hold what `leastEdits` is of reversed
lists, and the distance does not change when both texts are read backwards.
-/
import Mathlib.Order.Bounds.Basic
import SelfTyped.Text.EditDistance
import SelfTyped.Text.Edits

namespace SelfTyped

/-! ## The recursion -/

/-- The least number of edits that turn one list of characters into another. -/
def leastEdits : List Char → List Char → Nat
  | [], target => target.length
  | source, [] => source.length
  | c :: source, d :: target =>
    min (min (leastEdits source (d :: target) + 1) (leastEdits (c :: source) target + 1))
      (if d = c then leastEdits source target else leastEdits source target + 1)
termination_by source target => source.length + target.length

variable {a b c : List Char} {n m : Nat}

@[simp] theorem leastEdits_nil (b : List Char) : leastEdits [] b = b.length := by
  rw [leastEdits]

@[simp] theorem leastEdits_to_nil (a : List Char) : leastEdits a [] = a.length := by
  cases a <;> simp [leastEdits]

theorem leastEdits_cons (x y : Char) (a b : List Char) :
    leastEdits (x :: a) (y :: b) =
      min (min (leastEdits a (y :: b) + 1) (leastEdits (x :: a) b + 1))
        (if y = x then leastEdits a b else leastEdits a b + 1) := by
  rw [leastEdits]

theorem leastEdits_self (a : List Char) : leastEdits a a = 0 := by
  induction a with
  | nil => rw [leastEdits_nil, List.length_nil]
  | cons x a ih => rw [leastEdits_cons, if_pos rfl, ih, Nat.min_zero]

/-! ## Attained -/

theorem Edit.under (edit : Edit a b) (x : Char) : Edit (x :: a) (x :: b) := by
  cases edit with
  | insert before after c => exact .insert (x :: before) after c
  | delete before after c => exact .delete (x :: before) after c
  | replace before after c d => exact .replace (x :: before) after c d

namespace Edits

theorem single (edit : Edit a b) : Edits 1 a b :=
  .step edit (.none b)

theorem trans (first : Edits n a b) (second : Edits m b c) : Edits (n + m) a c := by
  induction first with
  | none => rwa [Nat.zero_add]
  | step edit _ ih =>
    rw [Nat.add_right_comm]
    exact .step edit (ih second)

theorem under (edits : Edits n a b) (x : Char) : Edits n (x :: a) (x :: b) := by
  induction edits with
  | none a => exact .none (x :: a)
  | step edit _ ih => exact .step (edit.under x) ih

theorem insertAll (b : List Char) : Edits b.length [] b := by
  induction b with
  | nil => exact .none []
  | cons y b ih => exact ih.trans (single (.insert [] b y))

theorem deleteAll (a : List Char) : Edits a.length a [] := by
  induction a with
  | nil => exact .none []
  | cons x a ih => exact .step (.delete [] a x) ih

end Edits

/-- So many edits suffice. -/
theorem edits_leastEdits (a b : List Char) : Edits (leastEdits a b) a b := by
  fun_induction leastEdits a b with
  | case1 target => exact .insertAll target
  | case2 source => exact .deleteAll source
  | case3 x a y b deleted inserted kept =>
    have byDelete : Edits (leastEdits a (y :: b) + 1) (x :: a) (y :: b) :=
      .step (.delete [] a x) deleted
    have byInsert : Edits (leastEdits (x :: a) b + 1) (x :: a) (y :: b) :=
      inserted.trans (.single (.insert [] b y))
    have byChange : Edits (if y = x then leastEdits a b else leastEdits a b + 1)
        (x :: a) (y :: b) := by
      split
      · next same =>
        rw [same]
        exact kept.under x
      · exact .step (.replace [] a x y) (kept.under y)
    exact min_rec' (Edits · _ _) (min_rec' (Edits · _ _) byDelete byInsert) byChange

/-! ## No fewer

What an edit changes is compared at the head of a list first, and then behind equal characters. -/

theorem leastEdits_insert_target (a : List Char) (y : Char) (c : List Char) :
    leastEdits a (y :: c) ≤ leastEdits a c + 1 := by
  cases a with
  | nil => simp
  | cons x a =>
    rw [leastEdits_cons]
    omega

theorem leastEdits_delete (x : Char) (a c : List Char) :
    leastEdits (x :: a) c ≤ leastEdits a c + 1 := by
  cases c with
  | nil => simp
  | cons y c =>
    rw [leastEdits_cons]
    omega

theorem leastEdits_insert (x : Char) (a c : List Char) :
    leastEdits a c ≤ leastEdits (x :: a) c + 1 := by
  induction c with
  | nil =>
    simp only [leastEdits_to_nil, List.length_cons]
    omega
  | cons y c ih =>
    have inserted := leastEdits_insert_target a y c
    rw [leastEdits_cons]
    split <;> omega

theorem leastEdits_replace (x y : Char) (a c : List Char) :
    leastEdits (x :: a) c ≤ leastEdits (y :: a) c + 1 := by
  induction c with
  | nil => simp
  | cons z c ih =>
    rw [leastEdits_cons, leastEdits_cons]
    split <;> split <;> omega

theorem leastEdits_under (closer : ∀ c, leastEdits a c ≤ leastEdits b c + 1) (x : Char)
    (c : List Char) : leastEdits (x :: a) c ≤ leastEdits (x :: b) c + 1 := by
  induction c with
  | nil =>
    have lengths := closer []
    simp only [leastEdits_to_nil, List.length_cons] at lengths ⊢
    omega
  | cons y c ih =>
    have behind := closer c
    have before := closer (y :: c)
    rw [leastEdits_cons, leastEdits_cons]
    split <;> omega

/-- **An edit changes the distance by one at most.** -/
theorem Edit.leastEdits_le (edit : Edit a b) (c : List Char) :
    leastEdits a c ≤ leastEdits b c + 1 := by
  cases edit with
  | insert before after d =>
    induction before generalizing c with
    | nil => exact leastEdits_insert d after c
    | cons x before ih => exact leastEdits_under ih x c
  | delete before after d =>
    induction before generalizing c with
    | nil => exact leastEdits_delete d after c
    | cons x before ih => exact leastEdits_under ih x c
  | replace before after d e =>
    induction before generalizing c with
    | nil => exact leastEdits_replace d e after c
    | cons x before ih => exact leastEdits_under ih x c

theorem Edits.leastEdits_le (edits : Edits n a b) : leastEdits a b ≤ n := by
  induction edits with
  | none a => rw [leastEdits_self]
  | step edit _ ih => exact (edit.leastEdits_le _).trans (Nat.succ_le_succ ih)

/-! ## Backwards -/

theorem Edit.reverse (edit : Edit a b) : Edit a.reverse b.reverse := by
  cases edit with
  | insert before after c =>
    simpa using Edit.insert after.reverse before.reverse c
  | delete before after c =>
    simpa using Edit.delete after.reverse before.reverse c
  | replace before after c d =>
    simpa using Edit.replace after.reverse before.reverse c d

theorem Edits.reverse (edits : Edits n a b) : Edits n a.reverse b.reverse := by
  induction edits with
  | none a => exact .none a.reverse
  | step edit _ ih => exact .step edit.reverse ih

/-! ## Rows -/

/-- The distances from `a` to `b`, and to `b` with more and more of some characters put in
front. -/
def distances (a b : List Char) : List Char → List Nat
  | [] => [leastEdits a b]
  | t :: rest => leastEdits a b :: distances a (t :: b) rest

theorem distances_eq_cons (a b rest : List Char) :
    distances a b rest = leastEdits a b :: (distances a b rest).tail := by
  cases rest <;> rfl

theorem extendRow_distances (x : Char) (a b rest : List Char) :
    extendRow x rest (distances a b rest) (leastEdits (x :: a) b) =
      (distances (x :: a) b rest).tail := by
  induction rest generalizing b with
  | nil => rfl
  | cons t rest ih =>
    have next := ih (t :: b)
    rw [distances_eq_cons] at next
    rw [distances, distances_eq_cons a (t :: b), extendRow, ← leastEdits_cons, next, distances,
      List.tail_cons, ← distances_eq_cons]

theorem nextRow_distances (target a : List Char) (x : Char) :
    nextRow target (distances a [] target) x = distances (x :: a) [] target := by
  have first : leastEdits a [] + 1 = leastEdits (x :: a) [] := by simp
  have entries := extendRow_distances x a [] target
  rw [distances_eq_cons] at entries
  rw [distances_eq_cons, nextRow, first, entries, ← distances_eq_cons]

theorem foldl_nextRow (target source a : List Char) :
    source.foldl (nextRow target) (distances a [] target) =
      distances (source.reverse ++ a) [] target := by
  induction source generalizing a with
  | nil => rfl
  | cons x source ih =>
    rw [List.foldl_cons, nextRow_distances, ih, List.reverse_cons, List.append_assoc,
      List.singleton_append]

/-- The first row. -/
theorem distances_nil (b rest : List Char) :
    distances [] b rest = List.range' b.length (rest.length + 1) := by
  induction rest generalizing b with
  | nil => rw [distances, leastEdits_nil, List.length_nil, List.range'_one]
  | cons t rest ih =>
    rw [distances, leastEdits_nil, ih, List.length_cons, List.length_cons, ← List.range'_succ]

theorem getLastD_distances (a b rest : List Char) (d : Nat) :
    (distances a b rest).getLastD d = leastEdits a (rest.reverse ++ b) := by
  induction rest generalizing b d with
  | nil => rfl
  | cons t rest ih =>
    rw [distances, List.getLastD_cons, ih, List.reverse_cons, List.append_assoc,
      List.singleton_append]

theorem editDistanceOfChars_eq (source target : List Char) :
    editDistanceOfChars source target = leastEdits source.reverse target.reverse := by
  have first : List.range (target.length + 1) = distances [] [] target := by
    rw [distances_nil, List.length_nil, List.range_eq_range']
  rw [editDistanceOfChars, first, foldl_nextRow, getLastD_distances, List.append_nil,
    List.append_nil]

/-- **The edit distance** is the least number of edits that turn one text into the other. -/
theorem isLeast_editDistance (a b : String) :
    IsLeast {n | Edits n a.toList b.toList} (editDistance a b) := by
  rw [editDistance, editDistanceOfChars_eq]
  constructor
  · have attained := (edits_leastEdits a.toList.reverse b.toList.reverse).reverse
    rwa [List.reverse_reverse, List.reverse_reverse] at attained
  · intro n edits
    exact edits.reverse.leastEdits_le

end SelfTyped
