import ApiGraph.Proofs.Json.Canonical
import ApiGraph.Proofs.Resolve.Operation

/-! Payloads that are registered by their content. What a payload is registered by depends on its
schema up to the order of keys only, and an inline one gets the name of its content. -/

namespace ApiGraph

open Resolving

namespace Schema

/-- The types that decide what a payload is registered by. -/
def payloadTypes : List String := "array" :: primitiveTypes

/-- In a message only a string looks like the word for a type. -/
theorem shown_eq_iff {t : Json} {type : String} (ht : type ∈ payloadTypes) :
    t.shown = type ↔ t.text? = some type := by
  have named {cs : List Char} (hcs : ∀ type ∈ payloadTypes, cs ≠ type.toList) :
      ¬ String.ofList cs = type := by
    rintro rfl
    exact hcs _ ht String.toList_ofList.symm
  have numeric {cs : List Char} (hcs : ∀ c ∈ cs, Json.isNumeric c = true) :
      ∀ type ∈ payloadTypes, cs ≠ type.toList := by
    rintro type ht rfl
    have letters : ∀ type ∈ payloadTypes, type.toList.all Json.isNumeric = false := by decide
    have := letters type ht
    rw [List.all_eq_true.2 hcs] at this
    cases this
  have bracket {c : Char} {cs : List Char} (hc : c = '[' ∨ c = '\x7b') :
      ∀ type ∈ payloadTypes, c :: cs ≠ type.toList := by
    intro type ht he
    have heads : ∀ type ∈ payloadTypes, type.toList.head? ≠ some '[' ∧
        type.toList.head? ≠ some '\x7b' := by decide
    rcases hc with rfl | rfl
    · exact (heads type ht).1 (he ▸ rfl)
    · exact (heads type ht).2 (he ▸ rfl)
  cases t with
  | str s => simp [Json.shown, Json.text?]
  | null =>
    have none : ∀ type ∈ payloadTypes, "None".toList ≠ type.toList := by decide
    simpa [Json.shown, Json.text?, Json.nested] using named none
  | bool b =>
    simp only [Json.shown, Json.text?, Json.nested, reduceCtorEq, iff_false]
    refine named ?_
    cases b <;> decide
  | int n =>
    simp only [Json.shown, Json.text?, Json.nested, reduceCtorEq, iff_false]
    refine named (numeric fun c hc => ?_)
    rcases Json.isDigit_intText hc with h | rfl
    · exact Double.isNumeric_of_isDigit h
    · decide
  | float x =>
    simp only [Json.shown, Json.text?, Json.nested, reduceCtorEq, iff_false]
    refine named ?_
    cases x with
    | finite a m e => exact numeric (Double.isNumeric_finiteText a m e)
    | infinite a => cases a <;> decide
    | nan => decide
  | arr vs =>
    simp only [Json.shown, Json.text?, Json.nested, reduceCtorEq, iff_false]
    exact named (bracket (Or.inl rfl))
  | obj es =>
    simp only [Json.shown, Json.text?, Json.nested, reduceCtorEq, iff_false]
    exact named (bracket (Or.inr rfl))

/-- The type that a list of types declares is the first of its words that is not the one for null. -/
theorem declaredType_arr {node : Json} {types : List Json} {type : String}
    (ht : type ∈ payloadTypes) (h : node.get "type" = .arr types) :
    (declaredType node).1 = some type ↔
      (types.map Json.text?).find? (· != some "null") = some (some type) ∨
      ((types.map Json.text?).find? (· != some "null") = none ∧
        (types.map Json.text?).any (· == some "null") = true ∧ type = "null") := by
  have hfind : (types.map Json.text?).find? (· != some "null") =
      (types.find? (!isNullWord ·)).map Json.text? := by
    rw [List.find?_map]
    rfl
  have hany : (types.map Json.text?).any (· == some "null") = types.any isNullWord := by
    rw [List.any_map]
    rfl
  rw [hfind, hany]
  simp only [declaredType, h]
  cases hf : types.find? (!isNullWord ·) with
  | some t => simpa using shown_eq_iff ht
  | none => cases types.any isNullWord <;> simp [eq_comm]

/-- Schemas that are alike declare the same type, if it matters for payloads. -/
theorem declaredType_of_alike {v w : Json} {type : String} (h : Json.Alike v w)
    (ht : type ∈ payloadTypes) (hv : (declaredType v).1 = some type) :
    (declaredType w).1 = some type := by
  have htype := h.get "type"
  generalize ha : v.get "type" = a at htype
  generalize hb : w.get "type" = b at htype
  cases htype with
  | @arr vs ws length items =>
    have texts : vs.map Json.text? = ws.map Json.text? :=
      Json.map_eq_of_getElem? length fun i v w hv hw => (items i v w hv hw).text?_eq
    rw [declaredType_arr ht ha, texts] at hv
    exact (declaredType_arr ht hb).2 hv
  | str s =>
    simp only [declaredType, ha] at hv
    simpa only [declaredType, hb] using hv
  | _ => simp [declaredType, ha] at hv

theorem isPrimitiveType_iff {t : Option String} :
    isPrimitiveType t = true ↔ ∃ type ∈ primitiveTypes, t = some type := by
  simp [isPrimitiveType, Option.any_eq_true, and_comm]

theorem isPrimitive_eq_of_alike {v w : Json} (h : Json.Alike v w) :
    isPrimitive v = isPrimitive w := by
  have half {v w : Json} (h : Json.Alike v w) (hv : isPrimitiveType (declaredType v).1 = true) :
      isPrimitiveType (declaredType w).1 = true := by
    obtain ⟨type, ht, hd⟩ := isPrimitiveType_iff.1 hv
    exact isPrimitiveType_iff.2 ⟨type, ht, declaredType_of_alike h (.tail _ ht) hd⟩
  have hp : isPrimitiveType (declaredType v).1 = isPrimitiveType (declaredType w).1 :=
    Bool.eq_iff_iff.2 ⟨half h, half h.symm⟩
  rw [isPrimitive, isPrimitive, h.isObject_eq, h.has_eq, hp]

end Schema

namespace Payload

/-- A schema in place: an object that is neither a reference nor primitive. -/
def isInline (v : Json) : Bool := v.isObject && !v.has "$ref" && !Schema.isPrimitive v

theorem isInline_eq_of_alike {v w : Json} (h : Json.Alike v w) : isInline v = isInline w := by
  rw [isInline, isInline, h.isObject_eq, h.has_eq, Schema.isPrimitive_eq_of_alike h]

/-- Payloads of schemas that are alike are registered by contents that are alike. -/
theorem registered?_of_alike {v w a : Json} (h : Json.Alike v w) (ha : registered? v = some a) :
    ∃ b, registered? w = some b ∧ Json.Alike a b := by
  have harray : (Schema.declaredType v).1 = some "array" ↔
      (Schema.declaredType w).1 = some "array" :=
    ⟨Schema.declaredType_of_alike h (by decide), Schema.declaredType_of_alike h.symm (by decide)⟩
  have hitems : Json.Alike (v.get "items") (w.get "items") := h.get "items"
  unfold registered? at ha ⊢
  simp only [h.isNull_eq, h.isObject_eq, h.has_eq, Schema.isPrimitive_eq_of_alike h, harray,
    Schema.isPrimitive_eq_of_alike hitems] at ha
  split at ha
  · cases ha
  next hn =>
  rw [if_neg hn]
  split at ha
  · next harr =>
    rw [if_pos harr]
    split at ha
    · cases ha
    · next hp =>
      cases ha
      exact ⟨_, if_neg hp, hitems⟩
  · next harr =>
    cases ha
    exact ⟨w, if_neg harr, h⟩

end Payload

end ApiGraph
