import ApiGraph.Proofs.Pointer
import ApiGraph.Resolve.Reference

/-! Where references lead. Each segment names a place that is there: a key of the mapping, or an
item of the list that the segments before it lead to. An index is any text that reads as a whole
number, and a negative one counts from the end; so one item has several references, unless every
index is written as the decimal form of a position. -/

namespace ApiGraph

open Shape (Step)

namespace Pointer

variable {root v w : Json} {ref segment : String} {segs : List String} {s : Step} {path : List Step}

/-- What a segment names at a value: a key, or an item counted from the front or from the end. -/
inductive Names : Json → String → Step → Prop
  | key {entries : List (String × Json)} {name : String} : Names (.obj entries) name (.key name)
  | front {items : List Json} {segment : String} {i : Nat}
    (number : index? segment.toList = some (i : Int)) : Names (.arr items) segment (.item i)
  | back {items : List Json} {segment : String} {i k : Nat}
    (number : index? segment.toList = some (-k : Int)) (behind : 0 < k)
    (place : i + k = items.length) : Names (.arr items) segment (.item i)

/-- The way that segments go through a value; every step leads to a part that is there. -/
inductive Way : Json → List String → List Step → Prop
  | stay {v : Json} : Way v [] []
  | go {v w : Json} {segment : String} {s : Step} {segs : List String} {path : List Step}
    (named : Names v segment s) (there : v.part? s = some w) (onward : Way w segs path) :
    Way v (segment :: segs) (s :: path)

/-- The segments that are not read as keys. -/
def indexes : Json → List String → List String
  | _, [] => []
  | v, segment :: rest =>
    let onward :=
      match step v segment with
      | some w => indexes w rest
      | none => []
    if v.isObject then onward else segment :: onward

/-- Whether a text is the decimal form of a natural number. -/
def IsDecimal (segment : String) : Prop := ∃ n, segment = String.ofList (Nat.toDigits 10 n)

/-- Whether every index in a reference into a document is the decimal form of a position. -/
def IndexesInDecimal (root : Json) (ref : String) : Prop :=
  ∀ index ∈ indexes root (segments ref), IsDecimal index

theorem item?_eq_some {items : List Json} {j : Int} :
    item? items j = some w ↔
      ∃ i : Nat, items[i]? = some w ∧
        (j = i ∨ ∃ k : Nat, j = -k ∧ 0 < k ∧ i + k = items.length) := by
  unfold item?
  constructor
  · intro h
    split at h
    · next front => exact ⟨j.toNat, h, .inl (Int.toNat_of_nonneg front).symm⟩
    · split at h
      · exact ⟨_, h, .inr ⟨(-j).toNat, by omega, by omega, by omega⟩⟩
      · cases h
  · rintro ⟨i, there, rfl | ⟨k, rfl, behind, place⟩⟩
    · rw [if_pos (Int.natCast_nonneg i), Int.toNat_natCast]
      exact there
    · rw [if_neg (by omega), if_pos (by omega), Int.neg_neg, Int.toNat_natCast, ← place,
        Nat.add_sub_cancel]
      exact there

theorem step_eq_some : step v segment = some w ↔ ∃ s, Names v segment s ∧ v.part? s = some w := by
  constructor
  · intro h
    cases v with
    | obj entries => exact ⟨.key segment, .key, h⟩
    | arr items =>
      obtain ⟨j, number, found⟩ := Option.bind_eq_some_iff.1 h
      obtain ⟨i, there, rfl | ⟨k, rfl, behind, place⟩⟩ := item?_eq_some.1 found
      · exact ⟨.item i, .front number, there⟩
      · exact ⟨.item i, .back number behind place, there⟩
    | _ => cases h
  · rintro ⟨s, named, there⟩
    cases named with
    | key => exact there
    | front number =>
      exact Option.bind_eq_some_iff.2 ⟨_, number, item?_eq_some.2 ⟨_, there, .inl rfl⟩⟩
    | back number behind place =>
      exact Option.bind_eq_some_iff.2
        ⟨_, number, item?_eq_some.2 ⟨_, there, .inr ⟨_, rfl, behind, place⟩⟩⟩

/-- By induction on the segments: they lead to a value exactly when they go a way to it. -/
theorem foldlM_step_eq_some :
    segs.foldlM step v = some w ↔ ∃ path, Way v segs path ∧ v.at? path = some w := by
  induction segs generalizing v with
  | nil =>
    refine ⟨fun h => ⟨[], .stay, h⟩, ?_⟩
    rintro ⟨path, way, there⟩
    cases way
    exact there
  | cons segment segs ih =>
    rw [List.foldlM_cons, Option.bind_eq_bind, Option.bind_eq_some_iff]
    constructor
    · rintro ⟨u, here, onward⟩
      obtain ⟨s, named, there⟩ := step_eq_some.1 here
      obtain ⟨path, way, target⟩ := ih.1 onward
      refine ⟨s :: path, .go named there way, ?_⟩
      rw [Json.at?, List.foldlM_cons, there]
      exact target
    · rintro ⟨path, way, target⟩
      cases way with
      | @go _ u _ s _ path named there way =>
        rw [Json.at?, List.foldlM_cons, there] at target
        exact ⟨u, step_eq_some.2 ⟨s, named, there⟩, ih.2 ⟨path, way, target⟩⟩

theorem resolve_eq_some :
    resolve root ref = some v ↔
      ref.toList.head? = some '#' ∧
        ∃ path, Way root (segments ref) path ∧ root.at? path = some v := by
  unfold resolve
  split
  · next sign => simp only [foldlM_step_eq_some, sign, true_and]
  · next sign => simp only [reduceCtorEq, sign, false_and]

/-- An index that is written in decimal counts from the front, and the step that it names is written
like it. -/
theorem Names.written (named : Names v segment s) :
    (v.isObject = false → IsDecimal segment) ↔ segment = String.ofList s.chars := by
  have number {n : Nat} {j : Int} (decimal : segment = String.ofList (Nat.toDigits 10 n))
      (h : index? segment.toList = some j) : j = n := by
    rw [decimal, String.toList_ofList] at h
    exact Integer.eq_of_ofText?_toDigits h
  cases named with
  | key => simp [Json.isObject, Step.chars]
  | @front items _ i hi =>
    constructor
    · intro h
      obtain ⟨n, decimal⟩ := h rfl
      obtain rfl : i = n := Int.natCast_inj.1 (number decimal hi)
      exact decimal
    · exact fun h _ => ⟨i, h⟩
  | @back items _ i k hk behind place =>
    constructor
    · intro h
      obtain ⟨n, decimal⟩ := h rfl
      have := number decimal hk
      omega
    · intro h
      have := number h hk
      omega

/-- By induction on the way: a way is written like the segments that go it when all indexes are in
decimal, and only then. -/
theorem Way.written (way : Way v segs path) :
    (∀ index ∈ indexes v segs, IsDecimal index) ↔
      segs = path.map fun s => String.ofList s.chars := by
  induction way with
  | stay => simp [indexes]
  | @go v w segment s segs path named there way ih =>
    have onward : step v segment = some w := step_eq_some.2 ⟨s, named, there⟩
    have both : (∀ index ∈ indexes v (segment :: segs), IsDecimal index) ↔
        (v.isObject = false → IsDecimal segment) ∧ ∀ index ∈ indexes w segs, IsDecimal index := by
      rw [indexes, onward]
      dsimp only
      split <;> simp [*]
    rw [both, named.written, ih, List.map_cons, List.cons.injEq]

/-- Nothing is changed by a reference that leads nowhere. -/
theorem followReference_missing (missing : resolve root ref = none) (self : Resolver)
    (scope : Scope) (p : Progress) :
    (followReference root self scope ref).run.run p =
      (.error (.missingReference ref scope.location), p) := by
  unfold followReference
  rw [missing]
  rfl

/-- A reference leads to a value exactly when it begins with a number sign and its segments go a way
through parts of the document that are there; to follow any other one is a failure that tells the
reference. The segments are the steps of the way as they are written exactly when each index is in
decimal, so that no two such references lead to the same part. -/
theorem references_lead_to_parts (root : Json) (ref : String) :
    (∀ v, resolve root ref = some v ↔
      ref.toList.head? = some '#' ∧
        ∃ path, Way root (segments ref) path ∧ root.at? path = some v) ∧
    (resolve root ref = none → ∀ (self : Resolver) (scope : Scope) (p : Progress),
      (followReference root self scope ref).run.run p =
        (.error (.missingReference ref scope.location), p)) ∧
    ∀ path, Way root (segments ref) path →
      (IndexesInDecimal root ref ↔ segments ref = path.map fun s => String.ofList s.chars) ∧
      ∀ ref', Way root (segments ref') path → IndexesInDecimal root ref →
        IndexesInDecimal root ref' → segments ref = segments ref' := by
  refine ⟨fun v => resolve_eq_some, followReference_missing, fun path way => ⟨way.written, ?_⟩⟩
  intro ref' way' decimal decimal'
  rw [way.written.1 decimal, way'.written.1 decimal']

/-- A list of two items. -/
def couple : Json := .obj [("a", .arr [.int 1, .int 2])]

/-- A slash less makes no other segments, and an index behind the end leads nowhere. -/
theorem references_lead_to_parts_couple :
    resolve couple "#/a/1" = some (.int 2) ∧
      Way couple (segments "#/a/1") [.key "a", .item 1] ∧
      Way couple (segments "#a/1") [.key "a", .item 1] ∧
      segments "#/a/1" = ["a", "1"] ∧ segments "#/a/1" = segments "#a/1" ∧
      ∀ (self : Resolver) (scope : Scope) (p : Progress),
        (followReference couple self scope "#/a/2").run.run p =
          (.error (.missingReference "#/a/2" scope.location), p) := by
  have first : segments "#/a/1" = ["a", "1"] := by decide
  have second : segments "#a/1" = ["a", "1"] := by decide
  have way : Way couple ["a", "1"] [.key "a", .item 1] := .go .key rfl (.go (.front rfl) rfl .stay)
  have decimal {ref : String} (h : segments ref = ["a", "1"]) : IndexesInDecimal couple ref := by
    have only : indexes couple ["a", "1"] = ["1"] := by decide
    rw [IndexesInDecimal, h, only]
    exact fun index hi => ⟨1, List.mem_singleton.1 hi⟩
  obtain ⟨leads, -, written⟩ := references_lead_to_parts couple "#/a/1"
  obtain ⟨same, unique⟩ := written [.key "a", .item 1] (first ▸ way)
  refine ⟨(leads _).2 ⟨rfl, _, first ▸ way, rfl⟩, first ▸ way, second ▸ way, same.1 (decimal first),
    unique _ (second ▸ way) (decimal first) (decimal second), ?_⟩
  exact (references_lead_to_parts couple "#/a/2").2.1 (by decide)

/-- An index that counts from the end leads to an item that another reference leads to, and spells
no way through the document. -/
theorem index_from_the_end_leads :
    resolve couple "#/a/-1" = some (.int 2) ∧
      Way couple (segments "#/a/-1") [.key "a", .item 1] ∧
      Way couple (segments "#/a/1") [.key "a", .item 1] ∧ segments "#/a/-1" ≠ segments "#/a/1" ∧
      ¬ ∃ path, segments "#/a/-1" = path.map (fun s => String.ofList s.chars) ∧
        (couple.at? path).isSome := by
  have fromEnd : segments "#/a/-1" = ["a", "-1"] := by decide
  have fromFront : segments "#/a/1" = ["a", "1"] := by decide
  have way : Way couple ["a", "-1"] [.key "a", .item 1] :=
    .go .key rfl (.go (.back rfl (by decide : 0 < 1) rfl) rfl .stay)
  refine ⟨rfl, fromEnd ▸ way, fromFront ▸ .go .key rfl (.go (.front rfl) rfl .stay), by decide, ?_⟩
  rintro ⟨path, spelled, there⟩
  rw [fromEnd] at spelled
  obtain ⟨s, onward, rfl, first, last⟩ := List.map_eq_cons_iff.1 spelled.symm
  obtain ⟨t, rest, rfl, second, done⟩ := List.map_eq_cons_iff.1 last
  obtain rfl := List.map_eq_nil_iff.1 done
  cases t with
  | item i => exact Integer.toDigits_ne_cons rfl ['1'] (String.ofList_injective second)
  | key name =>
    cases s with
    | item i => cases there
    | key a =>
      obtain rfl : a = "a" := by simpa [Step.chars] using first
      cases there

end Pointer

end ApiGraph
