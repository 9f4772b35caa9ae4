import ApiGraph.Proofs.Json.Chain
import ApiGraph.Proofs.Resolve.Walk

/-! The nodes that a resolution may come to: the components and the paths of a document, and from
there on the parts of a node and the target of its reference. Some parts are read without a look at
what they are; a node is fit if each of them is what it is read as. -/

namespace ApiGraph

namespace Json

/-- The keys under which another node stands. -/
def nodeKeys : List String :=
  ["items", "additionalProperties", "schema", "requestBody"] ++ Verb.all.map Verb.word

/-- The keys under which other nodes stand in a list. -/
def listKeys : List String := Schema.combinatorKeys ++ ["parameters"]

/-- The keys under which other nodes stand in an object. -/
def groupKeys : List String := ["properties", "headers", "responses"]

/-- The values of an object. -/
def members : Json → List Json
  | .obj entries => Dict.values entries
  | _ => []

/-- What a resolution may go on to from a node. Of a media type only the schema is a node. -/
def leads (node document : Json) : List Json :=
  nodeKeys.map node.get ++ listKeys.flatMap (fun key => (node.get key).parts?.getD []) ++
    groupKeys.flatMap (fun key => (node.get key).members) ++
    (node.get "content").members.map (·.get "schema") ++ (node.target? document).toList

/-- Null or a text. -/
def isOptionalText : Json → Bool
  | .null | .str _ => true
  | _ => false

/-- Null or a list. -/
def isOptionalList : Json → Bool
  | .null | .arr _ => true
  | _ => false

/-- A value that can be looked for among the names of members, as a list or an object cannot. -/
def isScalar : Json → Bool
  | .arr _ | .obj _ => false
  | _ => true

/-- Whether no item is a list or an object, if the value is a list. -/
def areScalars : Json → Bool
  | .arr items => items.all isScalar
  | _ => true

/-- A list of texts. -/
def areTexts : Json → Bool
  | .arr items => items.all fun v => v.text?.isSome
  | _ => false

/-- Security schemes with their scopes. -/
def isRequirement : Json → Bool
  | .obj entries => (Dict.values entries).all areTexts
  | _ => false

/-- A list of security requirements, or nothing. -/
def areRequirements (v : Json) : Bool :=
  !v.truthy ||
    match v with
    | .arr items => items.all isRequirement
    | _ => false

/-- The keys whose values are read as texts. -/
def textKeys : List String := ["description", "summary", "operationId", "format"]

/-- What is read of a node without a look at it is what it is read as. -/
structure Fit (node : Json) : Prop where
  text : ∀ key ∈ textKeys, (node.get key).isOptionalText = true
  enum : (node.get "enum").isOptionalList = true
  required : (node.get "required").areScalars = true
  content : (node.get "content").truthy = true → (node.get "content").isObject = true
  tags : (node.get "tags").truthy = true →
    ((node.get "tags").parts?.any fun parts => parts.all fun v => v.text?.isSome) = true
  parameters : (node.get "parameters").truthy = true →
    (node.get "parameters").parts?.isSome = true
  security : (node.get "security").areRequirements = true

instance : DecidablePred Fit := fun node =>
  decidable_of_iff
    ((∀ key ∈ textKeys, (node.get key).isOptionalText = true) ∧
      (node.get "enum").isOptionalList = true ∧ (node.get "required").areScalars = true ∧
      ((node.get "content").truthy = true → (node.get "content").isObject = true) ∧
      ((node.get "tags").truthy = true →
        ((node.get "tags").parts?.any fun parts => parts.all fun v => v.text?.isSome) = true) ∧
      ((node.get "parameters").truthy = true → (node.get "parameters").parts?.isSome = true) ∧
      (node.get "security").areRequirements = true)
    ⟨fun ⟨text, enum, required, content, tags, parameters, security⟩ =>
      ⟨text, enum, required, content, tags, parameters, security⟩,
      fun h => ⟨h.text, h.enum, h.required, h.content, h.tags, h.parameters, h.security⟩⟩

end Json

/-- A resolution may come to a node of the document. -/
inductive Reached (document : Json) : Json → Prop
  | component {e : Component.Entry} (declared : e ∈ Component.listed document) :
    Reached document e.node
  | path {entry : String × Json} (listed : entry ∈ Walk.listed document) :
    Reached document entry.2
  | next {node part : Json} (reached : Reached document node)
    (leads : part ∈ node.leads document) : Reached document part

/-- A document all of whose nodes are fit, and which has security requirements, if any, for those of
its operations that declare none. -/
structure Json.Orderly (document : Json) : Prop where
  nodes : ∀ node, Reached document node → node.Fit
  security : (document.get "security").areRequirements = true

/-- No chain of references is endless. -/
def Json.ChainsEnd (document : Json) : Prop :=
  ∀ node, Reached document node → ∃ n, Json.EndsAfter document n node

/-- A node that reads as one that is reached, but for its name and its place: a header gets them
from its key. -/
def Drawn (document node : Json) : Prop :=
  ∃ v, Reached document v ∧ ∀ key, key ≠ "name" → key ≠ "in" → node.get? key = v.get? key

variable {document node part : Json} {key : String}

theorem Reached.drawn (h : Reached document node) : Drawn document node :=
  ⟨node, h, fun _ _ _ => rfl⟩

namespace Drawn

/-- The node of a header with its name and its place. -/
theorem asParameter {entries : List (String × Json)} (h : Drawn document (.obj entries))
    (name : String) : Drawn document (Header.asParameter name entries) := by
  obtain ⟨v, reached, same⟩ := h
  refine ⟨v, reached, fun key hname hin => ?_⟩
  rw [← same key hname hin, Header.asParameter, Json.get?, Json.get?,
    Dict.lookup_put_of_ne _ _ (by simpa using hin),
    Dict.lookup_put_of_ne _ _ (by simpa using hname)]

theorem leads (h : Drawn document node) (hp : part ∈ node.leads document) :
    Reached document part := by
  obtain ⟨v, reached, same⟩ := h
  have get (key : String) (hname : key ≠ "name") (hin : key ≠ "in") : node.get key = v.get key := by
    rw [Json.get, Json.get, same key hname hin]
  have equal : node.leads document = v.leads document := by
    simp [Json.leads, Json.nodeKeys, Json.listKeys, Json.groupKeys, Json.target?, Verb.all,
      Verb.word, Schema.combinatorKeys, get, same]
  exact .next reached (equal ▸ hp)

theorem fit (h : Drawn document node) (orderly : document.Orderly) : node.Fit := by
  obtain ⟨v, reached, same⟩ := h
  have get (key : String) (hname : key ≠ "name") (hin : key ≠ "in") : node.get key = v.get key := by
    rw [Json.get, Json.get, same key hname hin]
  have fit := orderly.nodes v reached
  constructor
  · intro key hk
    have hname : key ≠ "name" := by
      rintro rfl
      simp [Json.textKeys] at hk
    have hin : key ≠ "in" := by
      rintro rfl
      simp [Json.textKeys] at hk
    rw [get key hname hin]
    exact fit.text key hk
  · exact get "enum" (by decide) (by decide) ▸ fit.enum
  · exact get "required" (by decide) (by decide) ▸ fit.required
  · exact get "content" (by decide) (by decide) ▸ fit.content
  · exact get "tags" (by decide) (by decide) ▸ fit.tags
  · exact get "parameters" (by decide) (by decide) ▸ fit.parameters
  · exact get "security" (by decide) (by decide) ▸ fit.security

theorem value (h : Drawn document node) (hk : key ∈ Json.nodeKeys) :
    Drawn document (node.get key) := by
  refine (h.leads ?_).drawn
  simp only [Json.leads, List.mem_append, List.mem_map]
  exact .inl (.inl (.inl (.inl ⟨key, hk, rfl⟩)))

theorem item {parts : List Json} (h : Drawn document node) (hk : key ∈ Json.listKeys)
    (hp : (node.get key).parts? = some parts) (hv : part ∈ parts) : Drawn document part := by
  refine (h.leads ?_).drawn
  simp only [Json.leads, List.mem_append, List.mem_flatMap]
  exact .inl (.inl (.inl (.inr ⟨key, hk, by rwa [hp]⟩)))

theorem member {entries : List (String × Json)} {entry : String × Json} (h : Drawn document node)
    (hk : key ∈ Json.groupKeys) (he : node.get key = .obj entries) (hv : entry ∈ entries) :
    Drawn document entry.2 := by
  refine (h.leads ?_).drawn
  simp only [Json.leads, List.mem_append, List.mem_flatMap]
  exact .inl (.inl (.inr ⟨key, hk, by rw [he]; exact List.mem_map_of_mem hv⟩))

/-- The schema of a media type. -/
theorem media {entries : List (String × Json)} {entry : String × Json} (h : Drawn document node)
    (he : node.get "content" = .obj entries) (hv : entry ∈ entries) :
    Drawn document (entry.2.get "schema") := by
  refine (h.leads ?_).drawn
  simp only [Json.leads, List.mem_append, List.mem_map]
  exact .inl (.inr ⟨entry.2, by rw [he]; exact List.mem_map_of_mem hv, rfl⟩)

theorem target {v : Json} (h : Drawn document node) (leads : node.target? document = some v) :
    Drawn document v := by
  refine (h.leads ?_).drawn
  simp only [Json.leads, List.mem_append]
  exact .inr (by simp [leads])

theorem ends (h : Drawn document node) (chains : document.ChainsEnd) :
    ∃ n, Json.EndsAfter document n node := by
  obtain ⟨v, reached, same⟩ := h
  obtain ⟨n, ends⟩ := chains v reached
  have target : node.target? document = v.target? document := by
    rw [Json.target?, Json.target?, same "$ref" (by decide) (by decide)]
  cases ends with
  | here stops => exact ⟨0, .here (target.trans stops)⟩
  | later leads rest => exact ⟨_, .later (target.trans leads) rest⟩

end Drawn

namespace Json

/-- Whether the chain of references from a node on ends within some steps. -/
def endsWithin (document : Json) : Nat → Json → Bool
  | 0, _ => false
  | steps + 1, node =>
    match node.target? document with
    | none => true
    | some v => endsWithin document steps v

/-- Whether a node is fit and its chain ends, and so for everything that a resolution goes on to
from there, within some steps. -/
def soundWithin (document : Json) : Nat → Json → Bool
  | 0, _ => false
  | depth + 1, node =>
    node.isNull || decide node.Fit && endsWithin document depth node &&
      (node.leads document).all (soundWithin document depth)

theorem endsAfter_of_endsWithin {steps : Nat} (h : endsWithin document steps node = true) :
    ∃ n, EndsAfter document n node := by
  induction steps generalizing node with
  | zero => cases h
  | succ steps ih =>
    unfold endsWithin at h
    split at h
    · next stops => exact ⟨0, .here stops⟩
    · next v leads =>
      obtain ⟨n, rest⟩ := ih h
      exact ⟨n + 1, .later leads rest⟩

theorem eq_null (h : node.isNull = true) : node = .null := by
  cases node with
  | null => rfl
  | _ => cases h

theorem leads_null (h : part ∈ leads .null document) : part = .null := by
  simpa [leads, nodeKeys, listKeys, groupKeys, target?, get, get?, parts?, members, Verb.all,
    Schema.combinatorKeys] using h

/-- A document without circles is orderly, and its chains end, if this is so for each of its
components and paths within some steps. -/
theorem orderly_of_soundWithin (depth : Nat)
    (components : ((Component.listed document).all fun e =>
      soundWithin document depth e.node) = true)
    (paths : ((Walk.listed document).all fun entry => soundWithin document depth entry.2) = true)
    (security : (document.get "security").areRequirements = true) :
    document.Orderly ∧ document.ChainsEnd := by
  have within : ∀ node, Reached document node →
      ∃ depth, soundWithin document depth node = true := by
    intro node reached
    induction reached with
    | component declared => exact ⟨depth, List.all_eq_true.1 components _ declared⟩
    | path listed => exact ⟨depth, List.all_eq_true.1 paths _ listed⟩
    | @next node part _ leads ih =>
      obtain ⟨depth, sound⟩ := ih
      cases depth with
      | zero => cases sound
      | succ depth =>
        simp only [soundWithin, Bool.or_eq_true, Bool.and_eq_true, List.all_eq_true] at sound
        rcases sound with none | ⟨-, rest⟩
        · rw [eq_null none] at leads
          obtain rfl := leads_null leads
          exact ⟨1, rfl⟩
        · exact ⟨depth, rest part leads⟩
  have sound (node : Json) (reached : Reached document node) :
      node.Fit ∧ ∃ n, EndsAfter document n node := by
    obtain ⟨depth, sound⟩ := within node reached
    cases depth with
    | zero => cases sound
    | succ depth =>
      simp only [soundWithin, Bool.or_eq_true, Bool.and_eq_true, decide_eq_true_eq] at sound
      rcases sound with none | ⟨⟨fit, ends⟩, -⟩
      · rw [eq_null none]
        exact ⟨by decide, 0, .here rfl⟩
      · exact ⟨fit, endsAfter_of_endsWithin ends⟩
  exact ⟨⟨fun node reached => (sound node reached).1, security⟩, fun node reached =>
    (sound node reached).2⟩

end Json

end ApiGraph
