import ApiGraph.Proofs.Dict
import ApiGraph.Schema.Keyword

/-! The validations and extras of a node are its entries of either kind, written one after the
other. -/

namespace ApiGraph.Schema

/-- Whether a key is kept beside the structure of a schema as a validation. -/
def isValidation (k : String) : Bool := !structuralKeys.contains k && validationKeys.contains k

/-- Whether a key is kept beside the structure of a schema as an extra. -/
def isExtra (k : String) : Bool := !structuralKeys.contains k && !validationKeys.contains k

theorem isValidation_iff {k : String} : isValidation k = true ↔ k ∈ validationKeys := by
  have apart : validationKeys.all (!structuralKeys.contains ·) = true := by decide +kernel
  rw [isValidation, Bool.and_eq_true, List.contains_iff_mem]
  exact and_iff_right_of_imp (List.all_eq_true.1 apart k)

theorem isExtra_iff {k : String} : isExtra k = true ↔ k ∉ structuralKeys ∧ k ∉ validationKeys := by
  simp [isExtra]

/-- Keywords are written one after the other. -/
theorem keywords_obj (es : List (String × Json)) :
    keywords (.obj es) = ⟨Dict.merge (nullableOf es) (es.filter fun x => isValidation x.1),
      Dict.merge [] (es.filter fun x => isExtra x.1)⟩ := by
  have add (k : Keywords) : es.foldl Keywords.add k =
      ⟨Dict.merge k.validations (es.filter fun x => isValidation x.1),
        Dict.merge k.extras (es.filter fun x => isExtra x.1)⟩ := by
    induction es generalizing k with
    | nil => rfl
    | cons x es ih =>
      rw [List.foldl_cons, ih, List.filter_cons, List.filter_cons, Keywords.add, isValidation,
        isExtra]
      cases structuralKeys.contains x.1 <;> cases validationKeys.contains x.1 <;> rfl
  exact add _

/-- No keyword is kept twice. -/
theorem nodup_keywords (v : Json) :
    (Dict.keys (keywords v).validations).Nodup ∧ (Dict.keys (keywords v).extras).Nodup := by
  cases v with
  | obj es =>
    have nullable : (Dict.keys (nullableOf es)).Nodup := by
      unfold nullableOf
      split <;> simp [Dict.keys]
    rw [keywords_obj]
    exact ⟨Dict.nodup_keys_merge _ nullable, Dict.nodup_keys_ofEntries _⟩
  | _ => exact ⟨List.nodup_nil, List.nodup_nil⟩

/-- What is kept of a node beside its structure has no structural key. -/
theorem lookup_extras {key : String} (h : structuralKeys.contains key = true) (node : Json) :
    (keywords node).extras.lookup key = none := by
  cases node with
  | obj es =>
    have dropped : (es.filter fun x => isExtra x.1).lookup key = none := by
      rw [Dict.lookup_filter, isExtra, h]
      rfl
    rw [keywords_obj, ← Option.not_isSome_iff_eq_none]
    intro written
    obtain hk | hk := Dict.mem_keys_merge.1 ((Dict.mem_keys_iff_has _ key).2 written)
    · exact List.not_mem_nil hk
    · rw [Dict.mem_keys_iff_has, Dict.has, dropped] at hk
      cases hk
  | _ => rfl

variable {key : String} {es : List (String × Json)} {v : Json}

/-- The validations are those entries of the node that are, and one for null if it has only the other
word for that. -/
theorem lookup_validations (single : (Dict.keys es).Nodup) :
    (keywords (.obj es)).validations.lookup key =
      (if isValidation key then es.lookup key else none).or ((nullableOf es).lookup key) := by
  have kept : (Dict.keys (es.filter fun x => isValidation x.1)).Nodup :=
    (List.filter_sublist.map Prod.fst).nodup single
  rw [keywords_obj, Dict.lookup_merge kept, Dict.lookup_filter]

/-- The extras are those entries of the node that are. -/
theorem lookup_extras_obj (single : (Dict.keys es).Nodup) :
    (keywords (.obj es)).extras.lookup key = if isExtra key then es.lookup key else none := by
  have kept : (Dict.keys (es.filter fun x => isExtra x.1)).Nodup :=
    (List.filter_sublist.map Prod.fst).nodup single
  rw [keywords_obj, Dict.lookup_merge kept, Dict.lookup_filter]
  exact Option.or_none

/-- What is kept for null beside the other entries comes from the vendor key, if there is one. -/
theorem lookup_nullableOf (h : (nullableOf es).lookup key = some v) :
    key = "nullable" ∧ (es.lookup "x-nullable" = some v ∨
      es.lookup "x-nullable" = none ∧ es.lookup "nullable" = some v) := by
  have only {w : Json} (h : List.lookup key [("nullable", w)] = some v) : key = "nullable" ∧ w = v := by
    rw [List.lookup_cons] at h
    split at h
    · next same => exact ⟨eq_of_beq same, Option.some.inj h⟩
    · cases h
  unfold nullableOf at h
  split at h
  · next vendor =>
    obtain ⟨rfl, rfl⟩ := only h
    exact ⟨rfl, .inl vendor⟩
  · next none own =>
    obtain ⟨rfl, rfl⟩ := only h
    exact ⟨rfl, .inr ⟨none, own⟩⟩
  · cases h

end ApiGraph.Schema
