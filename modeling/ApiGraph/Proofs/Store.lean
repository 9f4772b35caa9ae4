import ApiGraph.Proofs.Json.Order
import ApiGraph.Store
import Mathlib.Data.List.Forall2

/-! The keys of documents in the store. A mapping with texts as keys has the same ordered form however
its entries are ordered, so that documents that differ in nothing else share a key. -/

namespace ApiGraph

namespace Datum

open Json

/-- The ordered forms of entries with texts as keys. -/
def OrderedAs (entries : List (String × Datum)) (made : List (String × Json)) : Prop :=
  List.Forall₂ (fun p q => p.1 = q.1 ∧ p.2.ordered = .ok q.2) entries made

variable {entries : List (String × Datum)} {made : List (String × Json)}

theorem orderedEntries_texts (h : OrderedAs entries made) :
    orderedEntries (entries.map fun p => (.text p.1, p.2)) =
      .ok (made.map fun q => (.text q.1, q.1, q.2)) := by
  induction h with
  | nil => rfl
  | @cons p q entries made here _ ih =>
    obtain ⟨hk, hv⟩ := here
    rw [List.map_cons, orderedEntries, keyText, hv, ih, hk]
    rfl

theorem haveOrder_texts (entries : List (String × Datum)) :
    haveOrder ((entries.map fun p => ((.text p.1 : Datum), p.2)).map Prod.fst) = true := by
  cases entries with
  | nil => rfl
  | cons p entries => simp [haveOrder, keySort]

/-- Entries with texts as keys are ordered by their keys. -/
theorem ordered_texts (h : OrderedAs entries made) :
    (map (entries.map fun p => (.text p.1, p.2))).ordered = .ok (.obj (sortEntries made)) := by
  have sorted : ((made.map fun q => ((.text q.1 : Datum), q.1, q.2)).mergeSort
      fun p q => p.1.keyLe q.1).map Prod.snd = sortEntries made := by
    have moved := List.map_mergeSort (l := made.map fun q => ((.text q.1 : Datum), q.1, q.2))
      (r := fun p q => p.1.keyLe q.1) (s := fun a b : String × Json => decide (a.1 ≤ b.1))
      (f := Prod.snd) fun p hp q hq => by
        obtain ⟨p, -, rfl⟩ := List.mem_map.1 hp
        obtain ⟨q, -, rfl⟩ := List.mem_map.1 hq
        rfl
    rw [moved, List.map_map]
    exact congrArg sortEntries (List.map_id made)
  rw [ordered, haveOrder_texts, orderedEntries_texts h]
  exact congrArg (fun entries => Except.ok (Json.obj entries)) sorted

end Datum

/-- Documents with the same ordered form share a key. -/
theorem Store.key_eq_of_ordered {d d' : Datum} (h : d.ordered = d'.ordered) : key d = key d' := by
  unfold key keyText
  rw [h]

end ApiGraph
