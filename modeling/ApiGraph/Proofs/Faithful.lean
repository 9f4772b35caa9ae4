import ApiGraph.Proofs.Chase
import ApiGraph.Proofs.Components
import ApiGraph.Proofs.Json.Finite

/-! What the registry knows about references agrees with the document. The model under the name of
a reference was made from the node at which the chase of the reference ends; only a declared
component may stand in for a reference that leads nowhere. -/

namespace ApiGraph

open Resolving Registry

namespace Component

/-- Some of the references are those of declared components. -/
def Passed (document : Json) (refs : List String) : Prop := ∃ e ∈ listed document, e.key ∈ refs

/-- None of the references is that of a declared header, which is not registered as it is written. -/
def Headerless (document : Json) (refs : List String) : Prop :=
  ∀ e ∈ listed document, e.key ∈ refs → e.group.key ≠ "headers"

end Component

/-- A node may stand for the end of a chase: it is the object that was found, or the chase came
through a declared component before it found nothing. -/
def Ending.Admits (document : Json) (refs : List String) (source : Json) : Ending → Prop
  | .found v => Json.Alike source v
  | .missing _ => Component.Passed document refs
  | .foreign _ => False

/-- A node may stand for the end of the chase of a reference, which comes to an end. -/
def Represents (document : Json) (text : String) (source : Json) : Prop :=
  ∃ refs ending, Chase document (.link text) refs ending ∧
    (Component.Headerless document refs → ending.Admits document refs source)

variable {document source target : Json} {text next : String} {e : Component.Entry}

/-- An object without a reference stands for the references that lead to it. -/
theorem Represents.of_leads (leads : Pointer.resolve document text = some target)
    (object : target.isObject = true) (plain : target.get? "$ref" = none)
    (same : Json.Alike source target) :
    Represents document text source :=
  ⟨_, _, .next (Json.get?_link text) leads (.found object plain), fun _ => same⟩

/-- A reference that belongs to no component has the same end as the one that it leads to. -/
theorem represents_iff (undeclared : Component.Undeclared document text)
    (leads : Pointer.resolve document text = some target)
    (spells : target.get? "$ref" = some (.str next)) :
    Represents document text source ↔ Represents document next source := by
  have step {refs : List String} {ending : Ending} : Chase document (.link text) refs ending ↔
      ∃ rest, refs = text :: rest ∧ Chase document (.link next) rest ending := by
    rw [Chase.of_leads (Json.get?_link text) leads]
    exact exists_congr fun rest => and_congr_right fun _ => Chase.of_link spells
  have mem {e : Component.Entry} (he : e ∈ Component.listed document) {rest : List String} :
      e.key ∈ text :: rest ↔ e.key ∈ rest := by
    rw [List.mem_cons, or_iff_right (undeclared e he)]
  have admits {rest : List String} {ending : Ending} : ending.Admits document (text :: rest) source ↔
      ending.Admits document rest source := by
    cases ending with
    | missing _ => exact exists_congr fun e => and_congr_right fun he => mem he
    | _ => exact Iff.rfl
  have headerless {rest : List String} : Component.Headerless document (text :: rest) ↔
      Component.Headerless document rest :=
    forall_congr' fun e => forall_congr' fun he => imp_congr_left (mem he)
  constructor
  · rintro ⟨_, ending, chase, admitted⟩
    obtain ⟨rest, rfl, further⟩ := step.1 chase
    exact ⟨rest, ending, further, fun h => admits.1 (admitted (headerless.2 h))⟩
  · rintro ⟨rest, ending, chase, admitted⟩
    exact ⟨_, ending, step.2 ⟨rest, rfl, chase⟩, fun h => admits.2 (admitted (headerless.1 h))⟩

/-- What stands for the target of an alias stands for the alias. -/
theorem Represents.alias (unique : Component.Unrepeated document) (he : e ∈ Component.listed document)
    (spells : e.node.get? "$ref" = some (.str text)) (h : Represents document text source) :
    Represents document e.key source := by
  obtain ⟨rest, ending, chase, admitted⟩ := h
  refine ⟨_, ending, .next (Json.get?_link _) (Component.resolve_key unique he)
    ((Chase.of_link spells).2 chase), fun headerless => ?_⟩
  have admitted := admitted fun e' he' hm => headerless e' he' (List.mem_cons_of_mem _ hm)
  cases ending with
  | missing _ => exact ⟨e, he, List.mem_cons_self⟩
  | found _ => exact admitted
  | foreign _ => exact admitted

/-- Anything stands for an alias whose target is missing. -/
theorem Represents.missing {refs : List String} {lost : String}
    (unique : Component.Unrepeated document) (he : e ∈ Component.listed document)
    (spells : e.node.get? "$ref" = some (.str text))
    (chase : Chase document (.link text) refs (.missing lost)) :
    Represents document e.key source :=
  ⟨_, _, .next (Json.get?_link _) (Component.resolve_key unique he) ((Chase.of_link spells).2 chase),
    fun _ => ⟨e, he, List.mem_cons_self⟩⟩

/-- The node that the model of a component is made from stands for the component. -/
theorem Represents.component (unique : Component.Unrepeated document)
    (he : e ∈ Component.listed document) (object : e.node.isObject = true)
    (plain : e.node.get? "$ref" = none) : Represents document e.key e.source := by
  by_cases header : e.group.key = "headers"
  · exact ⟨_, _, .next (Json.get?_link _) (Component.resolve_key unique he) (.found object plain),
      fun headerless => absurd header (headerless e he List.mem_cons_self)⟩
  · rw [Component.Entry.source_of_ne fun _ _ => header]
    exact .of_leads (Component.resolve_key unique he) object plain (.refl _)

/-- Nothing is found out of the document. -/
theorem Chase.of_outside (outside : Pointer.isLocal text = false) :
    Chase document (.link text) [] (.missing text) := by
  refine .missing (Json.get?_link text) (Option.eq_none_iff_forall_ne_some.2 fun v hv => ?_)
  obtain ⟨_, spells, leads⟩ := Json.target?_eq_some.1 hv
  obtain rfl := Json.str.inj (Option.some.inj spells)
  rw [Pointer.isLocal_of_resolve leads] at outside
  cases outside

/-- A number at the end of a name changes nothing in how it begins. -/
theorem Pointer.isLocal_freeVariant {taken : List String} {name : String} (hn : name ≠ "") :
    isLocal (freeVariant taken name) = isLocal name := by
  obtain ⟨rest, hr⟩ : name.toList <+: (freeVariant taken name).toList := prefix_freeVariant _ _
  unfold isLocal
  rw [← hr]
  cases hl : name.toList with
  | nil => exact absurd (String.toList_inj.1 hl) hn
  | cons c cs => rfl

/-- The name for the target of a reference does not read as a reference itself. -/
theorem Pointer.isLocal_pointerName (text : String) : isLocal (pointerName text) = false := by
  unfold pointerName
  dsimp only
  split
  · next name hf =>
    obtain ⟨segment, -, rfl⟩ := List.mem_map.1 (List.mem_of_find?_eq_some hf)
    unfold isLocal
    rw [String.toList_ofList]
    split
    · next c rest hc =>
      have hm : c ∈ segmentName segment := hc ▸ List.mem_cons_self
      have kept := (List.mem_filter.1 hm).2
      by_contra h
      simp only [Bool.or_eq_true, beq_iff_eq, Bool.not_eq_false] at h
      rcases h with (rfl | rfl) | rfl <;> exact absurd kept (by decide +kernel)
    · rfl
  · rfl

namespace Registry

variable {P R : String → Prop} {r s t : Registry} {key name : String} {m : Model}

/-- No name of a model or of a declared component reads as a reference into the document. -/
structure Clean (document : Json) (r : Registry) : Prop where
  model : ∀ {name}, r.contains name = true → Pointer.isLocal name = false
  component : ∀ {e : Component.Entry} {name : String}, e ∈ Component.listed document →
    r.named.lookup e.key = some name → Pointer.isLocal name = false

/-- The names that there were before are clean too, as long as components keep theirs. -/
theorem Clean.of_grows (h : s.Clean document) (g : Grows P r s)
    (kept : ∀ e ∈ Component.listed document, r.named.lookup e.key ≠ none → ¬ P e.key) :
    r.Clean document where
  model hc := h.model (g.contains hc)
  component {e name} he hn := h.component he (g.name (kept e he (by simp [hn])) hn)

theorem Clean.of_extends (h : s.Clean document) (hr : r.Sound R) (x : r.Extends R s) :
    r.Clean document := h.of_grows (x hr).2 fun _ _ known new => known new

/-- The tables agree with the document on where references end. -/
structure Faithful (document : Json) (r : Registry) : Prop where
  source : ∀ {text name m}, Pointer.isLocal text = true → r.named.lookup text = some name →
    r.models.lookup name = some m → m.source.isObject = true → Represents document text m.source
  shared : ∀ {text next name}, Pointer.isLocal text = true → Pointer.isLocal next = true →
    r.named.lookup text = some name → r.named.lookup next = some name → r.contains name = false →
    ∀ source, Represents document text source → Represents document next source
  content : ∀ {content name m}, r.structural.lookup content = some name →
    r.models.lookup name = some m → m.source.canonical = content
  outside : ∀ {text name}, Pointer.isLocal text = false → r.named.lookup text = some name →
    ∃ m, r.models.lookup name = some m ∧ m.source.isObject = false
  plain : ∀ {text name}, r.named.lookup text = some name → Pointer.isLocal name = false

namespace Faithful

/-- Which names are taken does not matter. -/
theorem of_eq (h : r.Faithful document) (named : s.named = r.named)
    (structural : s.structural = r.structural) (models : s.models = r.models) :
    s.Faithful document := by
  obtain ⟨_, _, _, taken⟩ := s
  obtain ⟨_, _, _, _⟩ := r
  subst named structural models
  exact ⟨h.source, h.shared, h.content, h.outside, h.plain⟩

/-- A model enters under a name that has none, and stands for all references with that name. -/
theorem enter (h : r.Faithful document)
    (models : s.models = Dict.put r.models name (entitled m name)) (absent : r.contains name = false)
    (named : ∀ {text n}, s.named.lookup text = some n → r.named.lookup text = some n ∨ n = name)
    (structural : ∀ {content n}, s.structural.lookup content = some n →
      (r.structural.lookup content = some n ∧ n ≠ name) ∨ (n = name ∧ m.source.canonical = content))
    (represents : ∀ {text}, Pointer.isLocal text = true → s.named.lookup text = some name →
      m.source.isObject = true → Represents document text m.source)
    (outside : ∀ {text}, Pointer.isLocal text = false → s.named.lookup text = some name →
      m.source.isObject = false)
    (plain : Pointer.isLocal name = false) : s.Faithful document := by
  have lookup {n : String} {k : Model} (hk : s.models.lookup n = some k) :
      (n = name ∧ k = entitled m name) ∨ (r.models.lookup n = some k ∧ n ≠ name) := by
    rw [models] at hk
    refine (lookup_put_cases hk).imp_right fun hk => ⟨hk, fun hn => ?_⟩
    rw [← hn, contains_eq_false_iff, hk] at absent
    cases absent
  have old {text n : String} (hn : s.named.lookup text = some n) (ne : n ≠ name) :
      r.named.lookup text = some n := (named hn).resolve_right ne
  refine ⟨fun inside hn hk object => ?_, fun inside inside' hn hn' hc => ?_, fun hs hk => ?_,
    fun {text n} far hn => ?_, fun hn => ?_⟩
  · obtain ⟨rfl, rfl⟩ | ⟨hk, ne⟩ := lookup hk
    · exact represents inside hn object
    · exact h.source inside (old hn ne) hk object
  · obtain ⟨ne, hc⟩ : _ ≠ name ∧ r.contains _ = false := by
      simpa [contains_put models, ← Bool.not_eq_true] using hc
    exact h.shared inside inside' (old hn ne) (old hn' ne) hc
  · obtain ⟨hs, ne⟩ | ⟨rfl, canonical⟩ := structural hs
    · obtain ⟨rfl, -⟩ | ⟨hk, -⟩ := lookup hk
      · exact absurd rfl ne
      · exact h.content hs hk
    · obtain ⟨-, rfl⟩ | ⟨-, ne⟩ := lookup hk
      · exact canonical
      · exact absurd rfl ne
  · by_cases he : n = name
    · subst he
      exact ⟨entitled m _, by rw [models]; exact Dict.lookup_put_self _ _ _, outside far hn⟩
    · obtain ⟨k, hk, source⟩ := h.outside far (old hn he)
      refine ⟨k, ?_, source⟩
      rw [models, Dict.lookup_put_of_ne _ _ (by simpa using he), hk]
  · obtain hn | rfl := named hn
    · exact h.plain hn
    · exact plain

/-- A reference gets another name, whose model stands for it. -/
theorem point (h : r.Faithful document) (inside : Pointer.isLocal text = true)
    (named : s.named = Dict.put r.named text name) (structural : s.structural = r.structural)
    (models : s.models = r.models) (plain : Pointer.isLocal name = false)
    (source : ∀ {m}, r.models.lookup name = some m → m.source.isObject = true →
      Represents document text m.source)
    (shared : ∀ {next}, Pointer.isLocal next = true → r.named.lookup next = some name →
      r.contains name = false →
      ∀ source, Represents document text source ↔ Represents document next source) :
    s.Faithful document := by
  have lookup {key n : String} (hn : s.named.lookup key = some n) :
      (key = text ∧ n = name) ∨ r.named.lookup key = some n := by
    rw [named] at hn
    exact lookup_put_cases hn
  have same : s.contains = r.contains := by
    unfold contains
    rw [models]
  refine ⟨fun here hn hk object => ?_, fun here there hn hn' hc => ?_, fun hs hk => ?_,
    fun far hn => ?_, fun hn => ?_⟩
  · rw [models] at hk
    obtain ⟨rfl, rfl⟩ | hn := lookup hn
    · exact source hk object
    · exact h.source here hn hk object
  · rw [same] at hc
    obtain ⟨rfl, rfl⟩ | hn := lookup hn <;> obtain ⟨rfl, he⟩ | hn' := lookup hn'
    · exact fun _ => id
    · exact fun source => (shared there hn' hc source).1
    · subst he
      exact fun source => (shared here hn hc source).2
    · exact h.shared here there hn hn' hc
  · rw [structural] at hs
    rw [models] at hk
    exact h.content hs hk
  · obtain ⟨rfl, -⟩ | hn := lookup hn
    · rw [inside] at far
      cases far
    · rw [models]
      exact h.outside far hn
  · obtain ⟨-, rfl⟩ | hn := lookup hn
    · exact plain
    · exact h.plain hn

/-- A reference gets a name that nobody has. -/
theorem reserve (h : r.Faithful document) (hc : Coherent R r) {wanted : String}
    (new : r.named.lookup text = none) (inside : Pointer.isLocal text = true) (hw : wanted ≠ "")
    (plain : Pointer.isLocal wanted = false) : (r.reserve text wanted).2.Faithful document := by
  have fresh := freeName_not_mem r wanted
  rw [reserve_new new]
  refine h.point inside rfl rfl rfl ((Pointer.isLocal_freeVariant hw).trans plain) (fun hk => ?_)
    fun _ hn => absurd (hc.taken_of_key hn) fresh
  rw [contains_eq_false_iff.1 (hc.not_contains fresh)] at hk
  cases hk

/-- A model is registered for a reference that it stands for. -/
theorem declare (h : r.Faithful document) (hc : Coherent R r) (inside : Pointer.isLocal text = true)
    (hn : r.named.lookup text = some name) (hs : (r.register .named text m).2 = s)
    (represents : m.source.isObject = true → Represents document text m.source) :
    s.Faithful document := by
  subst hs
  obtain same | ⟨absent, entered⟩ := register_known (m := m)
    (show r.indexed .named text = some name from hn)
  · rwa [same]
  rw [entered]
  refine h.enter rfl absent Or.inl (fun hs => .inl ⟨hs, fun he => ?_⟩) (fun here hk object => ?_)
    (fun far hk => ?_) (h.plain hn)
  · rw [← he, hc.model_of_content hs] at absent
    cases absent
  · exact h.shared inside here hn hk absent _ (represents object)
  · obtain ⟨k, known, -⟩ := h.outside far hk
    rw [contains_eq_false_iff.1 absent] at known
    cases known

/-- A model is registered for the content of the node that it was made from. -/
theorem store (h : r.Faithful document) (hc : Coherent R r) (clean : s.Clean document)
    {content : String} (hm : m.source.canonical = content)
    (hs : (r.register .structural content m).2 = s) : s.Faithful document := by
  cases known : r.indexed .structural content with
  | some name =>
    obtain same | ⟨absent, -⟩ := register_known (m := m) known
    · exact hs ▸ same.symm ▸ h
    · rw [hc.model_of_content known] at absent
      cases absent
  | none =>
    have fresh := freeName_not_mem r m.name
    rw [register_unknown known] at hs
    subst hs
    refine h.enter rfl (hc.not_contains fresh) Or.inl (fun {c n} hs => ?_)
      (fun _ hn => absurd (hc.taken_of_key hn) fresh)
      (fun _ hn => absurd (hc.taken_of_key hn) fresh)
      (clean.model ((contains_put rfl).2 (.inl rfl)))
    obtain ⟨rfl, rfl⟩ | hs := lookup_put_cases hs
    · exact .inr ⟨rfl, hm⟩
    · exact .inl ⟨hs, fun he => fresh (he ▸ hc.taken_of_content hs)⟩

/-- A model that was made from no node is registered under its own name. -/
theorem gather (h : r.Faithful document) (hc : Coherent R r) (clean : s.Clean document)
    (hm : m.source.isObject = false) (hs : (r.register .named m.name m).2 = s) :
    s.Faithful document := by
  have none {text : String} (object : m.source.isObject = true) : Represents document text m.source := by
    rw [hm] at object
    cases object
  cases known : r.indexed .named m.name with
  | some name =>
    obtain same | ⟨absent, entered⟩ := register_known (m := m) known
    · exact hs ▸ same.symm ▸ h
    · rw [entered] at hs
      subst hs
      refine h.enter rfl absent Or.inl (fun hs => .inl ⟨hs, fun he => ?_⟩) (fun _ _ => none)
        (fun _ _ => hm) (h.plain known)
      rw [← he, hc.model_of_content hs] at absent
      cases absent
  | none =>
    have fresh := freeName_not_mem r m.name
    rw [register_unknown known] at hs
    subst hs
    refine h.enter rfl (hc.not_contains fresh)
      (fun hn => (lookup_put_cases hn).symm.imp_right And.right)
      (fun hs => .inl ⟨hs, fun he => fresh (he ▸ hc.taken_of_content hs)⟩) (fun _ _ => none)
      (fun _ _ => hm) (clean.model ((contains_put rfl).2 (.inl rfl)))

end Faithful

end Registry

end ApiGraph
