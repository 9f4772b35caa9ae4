import ApiGraph.Proofs.Json.Canonical
import ApiGraph.Proofs.Store

/-! The texts under which contents are found again: those of nodes in the registry and those of documents
in the store. Both tell a value up to the order of keys. -/

namespace ApiGraph

namespace Datum

open Json

variable {v w : Json}

theorem ofItems_eq_map (vs : List Json) : ofItems vs = vs.map ofJson := by
  induction vs with
  | nil => rfl
  | cons v vs ih => rw [ofItems, ih, List.map_cons]

theorem ofEntries_eq_map (es : List (String × Json)) :
    ofEntries es = (es.map fun p => (p.1, ofJson p.2)).map fun p => (.text p.1, p.2) := by
  induction es with
  | nil => rfl
  | cons p es ih => rw [ofEntries, ih, List.map_cons, List.map_cons]

theorem haveHuge_eq_any (items : List Datum) : haveHuge items = items.any hasHuge := by
  induction items with
  | nil => rfl
  | cons v rest ih => rw [haveHuge, ih, List.any_cons]

theorem entriesHaveHuge_eq_any (es : List (String × Json)) :
    entriesHaveHuge (ofEntries es) = es.any fun p => (ofJson p.2).hasHuge := by
  induction es with
  | nil => rfl
  | cons p es ih => simp [ofEntries, entriesHaveHuge, hasHuge, ih]

theorem hasHuge_arr (vs : List Json) :
    (ofJson (.arr vs)).hasHuge = (vs.map fun v => (ofJson v).hasHuge).any id := by
  rw [ofJson, hasHuge, haveHuge_eq_any, ofItems_eq_map, List.any_map, List.any_map]
  rfl

/-- A JSON value has an ordered form, which is written as the value is with its keys in order, unless one
of its integers is too long to be written. -/
inductive Orders (v : Json) : Prop
  | huge (long : (ofJson v).hasHuge = true) (refused : (ofJson v).ordered = .error .huge) : Orders v
  | made {w : Json} (short : (ofJson v).hasHuge = false) (form : (ofJson v).ordered = .ok w)
    (text : ∀ level, write .line level w = write .spacedCanonical level v) : Orders v

theorem orders_int (n : Int) : Orders (.int n) := by
  cases h : isHuge n with
  | true => exact .huge h (by simp [ofJson, ordered, toJson, h])
  | false => exact .made (w := .int n) h (by simp [ofJson, ordered, toJson, h]) fun _ => rfl

theorem orders_arr {vs : List Json} (ih : ∀ v ∈ vs, Orders v) : Orders (.arr vs) := by
  have items : (vs.any fun v => (ofJson v).hasHuge) = true ∧ orderedItems (ofItems vs) = .error .huge ∨
      (vs.any fun v => (ofJson v).hasHuge) = false ∧ ∃ ws, orderedItems (ofItems vs) = .ok ws ∧
        ∀ level, ws.map (write .line level) = vs.map (write .spacedCanonical level) := by
    induction vs with
    | nil => exact .inr ⟨rfl, [], rfl, fun _ => rfl⟩
    | cons v vs rest =>
      obtain ⟨here, others⟩ := List.forall_mem_cons.1 ih
      rw [List.any_cons, ofItems, orderedItems]
      cases here with
      | huge long refused => exact .inl ⟨by rw [long, Bool.true_or], by rw [refused]; rfl⟩
      | @made w short form text =>
        rw [short, Bool.false_or, form]
        obtain ⟨long, refused⟩ | ⟨short, ws, forms, texts⟩ := rest others
        · exact .inl ⟨long, by rw [refused]; rfl⟩
        · exact .inr ⟨short, w :: ws, by rw [forms]; rfl, fun level => by
            rw [List.map_cons, List.map_cons, text, texts]⟩
  have huge : (ofJson (.arr vs)).hasHuge = vs.any fun v => (ofJson v).hasHuge := by
    rw [hasHuge_arr, List.any_map]
    rfl
  obtain ⟨long, refused⟩ | ⟨short, ws, forms, texts⟩ := items
  · exact .huge (huge.trans long) (by rw [ofJson, ordered, refused]; rfl)
  · refine .made (w := .arr ws) (huge.trans short) (by rw [ofJson, ordered, forms]; rfl) fun level => ?_
    rw [write_arr, write_arr, texts]
    rfl

theorem orders_obj {es : List (String × Json)} (ih : ∀ p ∈ es, Orders p.2) : Orders (.obj es) := by
  have entries : (es.any fun p => (ofJson p.2).hasHuge) = true ∧
        orderedEntries (ofEntries es) = .error .huge ∨
      (es.any fun p => (ofJson p.2).hasHuge) = false ∧ ∃ made : List (String × Json),
        OrderedAs (es.map fun p => (p.1, ofJson p.2)) made ∧ ∀ level,
          made.map (fun q => (q.1, write .line level q.2)) =
            es.map fun p => (p.1, write .spacedCanonical level p.2) := by
    induction es with
    | nil => exact .inr ⟨rfl, [], .nil, fun _ => rfl⟩
    | cons p es rest =>
      obtain ⟨here, others⟩ := List.forall_mem_cons.1 ih
      rw [List.any_cons, ofEntries, orderedEntries, keyText]
      cases here with
      | huge long refused => exact .inl ⟨by rw [long, Bool.true_or], by rw [refused]; rfl⟩
      | @made w short form text =>
        rw [short, Bool.false_or, form]
        obtain ⟨long, refused⟩ | ⟨short, made, forms, texts⟩ := rest others
        · exact .inl ⟨long, by rw [refused]; rfl⟩
        · exact .inr ⟨short, (p.1, w) :: made, .cons ⟨rfl, form⟩ forms, fun level => by
            rw [List.map_cons, List.map_cons, text, texts]⟩
  have huge : (ofJson (.obj es)).hasHuge = es.any fun p => (ofJson p.2).hasHuge := by
    rw [ofJson, hasHuge, entriesHaveHuge_eq_any]
  obtain ⟨long, refused⟩ | ⟨short, made, forms, texts⟩ := entries
  · refine .huge (huge.trans long) ?_
    rw [ofJson, ordered, refused, ofEntries_eq_map, haveOrder_texts]
    rfl
  · refine .made (w := .obj (sortEntries made)) (huge.trans short) ?_ fun level => ?_
    · rw [ofJson, ofEntries_eq_map, ordered_texts forms]
    · rw [write_obj (show Json.Style.spacedCanonical.sorted = true from rfl), ← texts, write,
        writeEntries_eq_map]
      have sorted : (sortEntries made).map (fun q => (q.1, write .line (level + 1) q.2)) =
          sortEntries (made.map fun q => (q.1, write .line (level + 1) q.2)) :=
        List.map_mergeSort fun _ _ _ _ => rfl
      rw [← sorted]
      rfl

theorem orders (v : Json) : Orders v := by
  induction v using Json.induction with
  | null => exact .made rfl rfl fun _ => rfl
  | bool b => exact .made rfl rfl fun _ => rfl
  | int n => exact orders_int n
  | float x => exact .made rfl rfl fun _ => rfl
  | str s => exact .made rfl rfl fun _ => rfl
  | arr vs ih => exact orders_arr ih
  | obj es ih => exact orders_obj ih

/-- An entry of an object has an integer that is too long if what stands under some key has one. -/
theorem hasHuge_obj {es : List (String × Json)} :
    (ofJson (.obj es)).hasHuge = true ↔ ∃ k, true ∈ (Json.under k es).map fun v => (ofJson v).hasHuge := by
  rw [ofJson, hasHuge, entriesHaveHuge_eq_any, List.any_eq_true]
  constructor
  · rintro ⟨p, hp, long⟩
    exact ⟨p.1, List.mem_map.2 ⟨p.2, by simpa [Json.under] using hp, long⟩⟩
  · rintro ⟨k, hk⟩
    obtain ⟨v, hv, long⟩ := List.mem_map.1 hk
    exact ⟨(k, v), Json.mem_of_mem_under hv, long⟩

/-- Values that are alike have no integers of other lengths. -/
theorem hasHuge_eq_of_alike (h : Json.Alike v w) : (ofJson v).hasHuge = (ofJson w).hasHuge := by
  induction h with
  | arr length items ih => rw [hasHuge_arr, hasHuge_arr, map_eq_of_getElem? length ih]
  | obj length values ih =>
    rw [Bool.eq_iff_iff, hasHuge_obj, hasHuge_obj]
    refine exists_congr fun k => ?_
    rw [map_eq_of_getElem? (length k) (ih k)]
  | _ => rfl

end Datum

namespace Store

variable {v w : Json}

/-- A document of JSON has the text of its release and its content, unless one of its integers is too long
to be written. -/
theorem keyText_ofJson (v : Json) :
    (Datum.ofJson v).hasHuge = true ∧ keyText (.ofJson v) = .error .huge ∨
      (Datum.ofJson v).hasHuge = false ∧
        keyText (.ofJson v) = .ok (release ++ "|" ++ v.render .spacedCanonical) := by
  obtain ⟨long, refused⟩ | ⟨short, form, text⟩ := Datum.orders v
  · exact .inl ⟨long, by rw [keyText, refused]; rfl⟩
  · refine .inr ⟨short, ?_⟩
    rw [keyText, form]
    exact congrArg (fun t => Except.ok (release ++ "|" ++ String.ofList t)) (text 0)

end Store

/-- Two values have the same canonical text exactly if they are the same up to the order of keys. So do
their texts as documents, which begin with the release and have spaces after the separators; a document
has such a text unless an integer in it is too long to be written. -/
theorem contents_identified (v w : Json) :
    (v.canonical = w.canonical ↔ Json.Alike v w) ∧
      ((Datum.ofJson v).hasHuge = true ∧ Store.keyText (.ofJson v) = .error .huge ∨
        Store.keyText (.ofJson v) = .ok (release ++ "|" ++ v.render .spacedCanonical) ∧
          (Store.keyText (.ofJson v) = Store.keyText (.ofJson w) ↔ Json.Alike v w)) := by
  refine ⟨Json.canonical_eq_iff, (Store.keyText_ofJson v).imp_right fun ⟨short, text⟩ => ⟨text, ?_⟩⟩
  have flat : Json.Style.spacedCanonical.IsFlat := Json.Style.isFlat_spacedCanonical
  obtain ⟨long, refused⟩ | ⟨-, other⟩ := Store.keyText_ofJson w
  · rw [text, refused]
    refine ⟨nofun, fun alike => ?_⟩
    rw [Datum.hasHuge_eq_of_alike alike, long] at short
    cases short
  · rw [text, other, ← Json.render_eq_iff flat, Except.ok.injEq, String.append_right_inj]

end ApiGraph
