import ApiGraph.Json.Shown
import ApiGraph.Proofs.Json.Chain

/-! The chase of references through a document, which asks no registry: from a node on, each
reference is followed to its target until a node without a reference is found. From one node on
there is at most one chase, and it follows no more references than the document has values. -/

namespace ApiGraph

/-- How a chase ends: at an object without a reference, at a reference that leads nowhere inside the
document, or at a value that is no object. -/
inductive Ending where
  | found (v : Json)
  | missing (ref : String)
  | foreign (v : Json)

/-- The chase from a node on follows these references and ends in this way. -/
inductive Chase (document : Json) : Json → List String → Ending → Prop
  | found {v : Json} (object : v.isObject = true) (plain : v.get? "$ref" = none) :
    Chase document v [] (.found v)
  | foreign {v : Json} (other : v.isObject = false) : Chase document v [] (.foreign v)
  | missing {node v : Json} (refers : node.get? "$ref" = some v)
    (lost : node.target? document = none) : Chase document node [] (.missing v.shown)
  | next {node target : Json} {text : String} {refs : List String} {ending : Ending}
    (spells : node.get? "$ref" = some (.str text)) (leads : Pointer.resolve document text = some target)
    (rest : Chase document target refs ending) : Chase document node (text :: refs) ending

/-- The node that is nothing but a reference. -/
def Json.link (text : String) : Json := .obj [("$ref", .str text)]

variable {document node other target : Json} {text : String} {refs more : List String}
  {ending way : Ending}

theorem Json.get?_link (text : String) : (Json.link text).get? "$ref" = some (.str text) := rfl

theorem Json.isObject_of_get? {v w : Json} {key : String} (h : v.get? key = some w) :
    v.isObject = true := by
  cases v with
  | obj _ => rfl
  | _ => cases h

namespace Chase

/-- The chase from a node on depends on its reference and on nothing else, if it has one. -/
theorem congr (h : Chase document node refs ending) (refers : node.get? "$ref" ≠ none)
    (same : other.get? "$ref" = node.get? "$ref") : Chase document other refs ending := by
  have lead : other.target? document = node.target? document := by simp only [Json.target?, same]
  cases h with
  | found _ plain => exact absurd plain refers
  | foreign none =>
    obtain ⟨v, hv⟩ := Option.ne_none_iff_exists'.1 refers
    rw [Json.isObject_of_get? hv] at none
    cases none
  | missing refers lost => exact .missing (same.trans refers) (lead.trans lost)
  | next spells leads rest => exact .next (same.trans spells) leads rest

/-- A node with a reference is chased like the reference alone. -/
theorem of_link (spells : node.get? "$ref" = some (.str text)) :
    Chase document node refs ending ↔ Chase document (.link text) refs ending :=
  ⟨fun h => h.congr (by simp [spells]) spells.symm, fun h => h.congr nofun spells⟩

/-- A chase through a reference goes on at its target. -/
theorem of_leads (spells : node.get? "$ref" = some (.str text))
    (leads : Pointer.resolve document text = some target) :
    Chase document node refs ending ↔
      ∃ rest, refs = text :: rest ∧ Chase document target rest ending := by
  refine ⟨fun h => ?_, fun ⟨_, hr, rest⟩ => hr ▸ .next spells leads rest⟩
  cases h with
  | found _ plain => simp [plain] at spells
  | foreign other => simp [Json.isObject_of_get? spells] at other
  | missing _ lost =>
    rw [Json.target?_eq_some.2 ⟨_, spells, leads⟩] at lost
    cases lost
  | next spells' leads' rest =>
    obtain rfl := Json.str.inj (Option.some.inj (spells.symm.trans spells'))
    obtain rfl := Option.some.inj (leads.symm.trans leads')
    exact ⟨_, rfl, rest⟩

/-- From one node on there is at most one chase. -/
theorem unique (h : Chase document node refs ending) (h' : Chase document node more way) :
    refs = more ∧ ending = way := by
  induction h generalizing more way with
  | found object plain =>
    cases h' with
    | found => exact ⟨rfl, rfl⟩
    | foreign other => simp [object] at other
    | missing refers | next refers => simp [plain] at refers
  | foreign other =>
    cases h' with
    | foreign => exact ⟨rfl, rfl⟩
    | found object => simp [other] at object
    | missing refers | next refers => simp [Json.isObject_of_get? refers] at other
  | missing refers lost =>
    cases h' with
    | found _ plain => simp [plain] at refers
    | foreign other => simp [Json.isObject_of_get? refers] at other
    | missing refers' =>
      obtain rfl := Option.some.inj (refers.symm.trans refers')
      exact ⟨rfl, rfl⟩
    | next spells leads =>
      rw [Json.target?_eq_some.2 ⟨_, spells, leads⟩] at lost
      cases lost
  | next spells leads rest ih =>
    obtain ⟨_, rfl, rest'⟩ := (of_leads spells leads).1 h'
    obtain ⟨rfl, rfl⟩ := ih rest'
    exact ⟨rfl, rfl⟩

/-- What is found has no reference. -/
theorem plain_of_found {v : Json} (h : Chase document node refs (.found v)) : v.has "$ref" = false := by
  generalize he : Ending.found v = ending at h
  induction h with
  | found _ plain =>
    obtain rfl := Ending.found.inj he
    simp [Json.has, plain]
  | next _ _ _ ih => exact ih he
  | _ => cases he

/-- A chase is a chain of references that ends. -/
theorem endsAfter (h : Chase document node refs ending) :
    Json.EndsAfter document refs.length node := by
  induction h with
  | found _ plain => exact .here (by simp [Json.target?, plain])
  | @foreign v other =>
    refine .here ?_
    cases v with
    | obj _ => cases other
    | _ => rfl
  | missing _ lost => exact .here lost
  | next spells leads _ ih => exact .later (Json.target?_eq_some.2 ⟨_, spells, leads⟩) ih

theorem length_le (h : Chase document node refs ending) : refs.length ≤ document.size + 1 :=
  h.endsAfter.le_size

end Chase

end ApiGraph
