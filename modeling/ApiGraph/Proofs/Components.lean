import ApiGraph.Proofs.Names
import ApiGraph.Proofs.Pointer
import ApiGraph.Proofs.Stream

/-! The components of an accepted document. Each is registered under a name of its own, which for
schemas is the declared one, and the model there was made from the declared node. -/

namespace ApiGraph

open Resolving Registry

namespace Component

variable {document : Json} {e e' : Entry} {es : List Entry} {p q : Progress} {r s : Registry}
  {scope : Scope} {link : Link Model} {m : Model} {name name' : String}

/-- Names are given to one key each. -/
def OneKey (r : Registry) : Prop :=
  ∀ {key key' name : String}, r.named.lookup key = some name → r.named.lookup key' = some name →
    key = key'

theorem oneKey_reserved (hc : Coherent (fun _ => True) r) (h : OneKey r) (e : Entry) :
    OneKey (reserved r e) := by
  intro key key' name hk hk'
  cases known : r.named.lookup e.key with
  | some given =>
    unfold reserved Registry.reserve at hk hk'
    rw [known] at hk hk'
    exact h hk hk'
  | none =>
    have fresh := freeName_not_mem r (wanted r e)
    unfold reserved at hk hk'
    rw [reserve_new known] at hk hk'
    rcases lookup_put_cases hk with ⟨rfl, rfl⟩ | ho <;>
      rcases lookup_put_cases hk' with ⟨rfl, he⟩ | ho'
    · rfl
    · exact absurd (hc.taken_of_key ho') fresh
    · exact absurd (hc.taken_of_key ho) (he ▸ fresh)
    · exact h ho ho'

theorem oneKey_foldl (hc : Coherent (fun _ => True) r) (h : OneKey r) (es : List Entry) :
    OneKey (es.foldl reserved r) := by
  induction es generalizing r with
  | nil => exact h
  | cons e es ih => exact ih (hc.step (reserve_effect r _ _)) (oneKey_reserved hc h e)

theorem oneKey_base (document : Json) : OneKey (base document) :=
  oneKey_foldl coherent_empty (fun h => by cases h) _

/-- The names of schemas are given to schemas as they are. -/
structure Verbatim (r : Registry) : Prop where
  named : ∀ {name}, name ∈ r.taken → r.named.lookup (Pointer.component "schemas" name) = some name
  same : ∀ {name given}, r.named.lookup (Pointer.component "schemas" name) = some given → given = name

theorem verbatim_empty : Verbatim .empty where
  named h := absurd h List.not_mem_nil
  same h := absurd h.symm (Option.some_ne_none _)

theorem Verbatim.reserved (h : Verbatim r) (hs : e.group.key = "schemas") :
    Verbatim (reserved r e) := by
  have key : e.key = Pointer.component "schemas" e.name := by rw [Entry.key, hs]
  unfold Component.reserved
  cases known : r.named.lookup e.key with
  | some given =>
    unfold Registry.reserve
    rw [known]
    exact h
  | none =>
    have new : e.name ∉ r.taken := fun hn => by
      rw [key, h.named hn] at known
      cases known
    have free : r.freeName (wanted r e) = e.name := by
      rw [wanted, if_neg (by simpa [isTaken] using new)]
      exact freeVariant_of_not_mem new
    rw [reserve_new known, free]
    refine ⟨fun {name} hn => ?_, fun {name given} hn => ?_⟩
    · rcases List.mem_cons.1 hn with rfl | hn
      · rw [key]
        exact Dict.lookup_put_self _ _ _
      · exact lookup_put_new known (h.named hn)
    · rcases lookup_put_cases hn with ⟨hk, rfl⟩ | hn
      · exact (Pointer.component_injective hk).2.symm
      · exact h.same hn

theorem verbatim_foldl (h : Verbatim r) (hs : ∀ e ∈ es, e.group.key = "schemas") :
    Verbatim (es.foldl Component.reserved r) := by
  induction es generalizing r with
  | nil => exact h
  | cons e es ih =>
    obtain ⟨here, rest⟩ := List.forall_mem_cons.1 hs
    exact ih (h.reserved here) rest

/-- Schemas are the first components whose names are given away. -/
theorem base_schema (he : e ∈ listed document) (hs : e.group.key = "schemas") :
    (base document).named.lookup e.key = some e.name := by
  obtain ⟨group, others, hgs, hkey, apart⟩ : ∃ group others, groups = group :: others ∧
      group.key = "schemas" ∧ ∀ other ∈ others, other.key ≠ "schemas" :=
    ⟨_, _, rfl, rfl, by decide⟩
  have cut : listed document = listedIn (document.get "components") group ++
      others.flatMap (listedIn (document.get "components")) := by rw [listed, hgs, List.flatMap_cons]
  have first : e ∈ listedIn (document.get "components") group := by
    rw [cut] at he
    refine (List.mem_append.1 he).resolve_right fun hm => ?_
    obtain ⟨other, ho, hm⟩ := List.mem_flatMap.1 hm
    exact apart other ho (group_of_listedIn hm ▸ hs)
  have verbatim :
      Verbatim ((listedIn (document.get "components") group).foldl Component.reserved .empty) :=
    verbatim_foldl verbatim_empty fun e he => by rw [group_of_listedIn he, hkey]
  obtain ⟨hc, -, named⟩ := coherent_foldl_reserved (coherent_empty (R := fun _ => True))
    (listedIn (document.get "components") group)
  obtain ⟨given, hn⟩ := named e first
  obtain rfl : given = e.name := verbatim.same (by rw [← hn, Entry.key, hs])
  rw [base, cut, List.foldl_append]
  exact (coherent_foldl_reserved hc _).2.1.name id hn

/-- The model of a component was made from its node. -/
theorem resolve_source (h : Runs (resolve (resolveNode document) scope e) p (.model m) q) :
    m.source = e.source := by
  have plain := resolve_plain h
  obtain ⟨_, _, k, he, -, hk, hm, key⟩ | ⟨_, out, ho, hm, -, hs⟩ := resolve_runs h
  · obtain rfl := Link.model.inj hm
    rw [Entry.source_of_headers he key, (Parameter.resolve_kind hk).2]
  · obtain ⟨depth, hf⟩ := resolveNode_runs ho
    rw [hs plain, (resolveForm_made hf hm.symm).2]

theorem Resolves.source {space : KeySpace} (h : Resolves document space e (.model m)) :
    m.source = e.source := by
  obtain ⟨_, _, _, -, run⟩ := h
  exact resolve_source run

/-- A component that is resolved into a handle is a reference, as long as models are found again by
their declared keys. -/
theorem resolve_alias (T : Traversal document) {ref : Ref} (named : scope.space = .named)
    (h : Runs (resolve (resolveNode document) scope e) p (.ref ref) q) :
    ∃ text, e.node.get? "$ref" = some (.str text) ∧ T.handle p.registry text ref q.registry := by
  obtain ⟨_, _, _, -, -, -, hm, -⟩ | ⟨scope', out, ho, hout, space, -⟩ := resolve_runs h
  · cases hm
  obtain ⟨depth, hf⟩ := resolveNode_runs ho
  obtain ⟨-, ⟨-, _, hr, rfl⟩ | ⟨-, m, -, rfl⟩ | ⟨-, m, -, rfl⟩ | ⟨-, _, m, -, -, rfl⟩ | ⟨-, hm⟩⟩ :=
    resolveForm_runs hf
  · obtain rfl := Link.ref.inj hout
    exact Traversal.resolveReference (Traversal.sound_resolveWithin T _) hr
  · cases hout
  · cases hout
  · cases hout
  · obtain ⟨_, structural, -⟩ | ⟨_, _, _, -, -, rfl⟩ := Schema.resolve_runs hm
    · rw [show scope'.space = .structural from structural, named] at space
      cases space
    · cases hout

theorem Resolves.isRef {ref : Ref} (h : Resolves document .named e (.ref ref)) :
    e.node.has "$ref" = true := by
  obtain ⟨scope, p, q, named, h⟩ := h
  obtain ⟨text, spells, -⟩ := resolve_alias (extension document fun _ => True) named h
  rw [Json.has, spells]
  rfl

/-- No section of components has a name twice. -/
def Unrepeated (document : Json) : Prop :=
  ((listed document).map fun e => (e.group.key, e.name)).Nodup

theorem eq_of_key (unique : Unrepeated document) (he : e ∈ listed document) (he' : e' ∈ listed document)
    (h : e.key = e'.key) : e = e' := by
  obtain ⟨hs, hn⟩ := Pointer.component_injective h
  exact List.inj_on_of_nodup_map unique he he' (Prod.ext hs hn)

/-- The reference to a component leads to its node. -/
theorem resolve_key (unique : Unrepeated document) (he : e ∈ listed document) :
    Pointer.resolve document e.key = some e.node := by
  obtain ⟨group, hg, hm⟩ := List.mem_flatMap.1 he
  have declared : ((document.get "components").get group.key).get? e.name = some e.node := by
    unfold listedIn at hm
    split at hm
    · next entries hs =>
      obtain ⟨entry, hn, rfl⟩ := List.mem_map.1 hm
      obtain ⟨v, hv⟩ := Option.isSome_iff_exists.1
        ((Dict.mem_keys_iff_has entries entry.1).1 (List.mem_map_of_mem hn))
      -- The section has the name only once, so that it is the entry that is found.
      have other : (⟨group, entry.1, v⟩ : Entry) ∈ listed document := by
        refine List.mem_flatMap.2 ⟨group, hg, ?_⟩
        rw [listedIn, hs]
        exact List.mem_map_of_mem (Dict.mem_of_lookup hv)
      obtain rfl := congrArg Entry.node (eq_of_key unique other he rfl)
      rw [hs]
      exact hv
    · cases hm
  rw [Entry.key, group_of_listedIn hm]
  exact Pointer.resolve_component hg declared

/-- The models that components have so far were made from their nodes, unless the node is a reference
to another one. -/
def Sourced (document : Json) (r : Registry) : Prop :=
  ∀ {e : Entry} {name : String} {m : Model}, e ∈ listed document → e.node.has "$ref" = false →
    r.named.lookup e.key = some name → r.models.lookup name = some m → m.source = e.source

/-- A model that is registered for a component is the model of that component and of no other. -/
theorem Sourced.assert {raw : Json} {location : String} {found : Resolved}
    (unique : Unrepeated document)
    (one : OneKey (base document)) (grown : Grows (fun _ => False) (base document) r)
    (hr : Ready document (listed document) r) (he : e ∈ listed document)
    (made : e.node.has "$ref" = false → m.source = e.source) (h : Sourced document r)
    (ha : r.assert raw (.model m) (some e.key) .named location = .ok (found, s)) :
    Sourced document s := by
  obtain rfl | ⟨name, hn, absent, rfl⟩ := assert_declared he hr ha
  · exact h
  · intro e' name' m' he' plain hn' hl
    rcases lookup_put_cases hl with ⟨rfl, rfl⟩ | hl
    · -- The two components have the same name, and so they are the same.
      have reserved {e : Entry} (he : e ∈ listed document) {name : String}
          (hn : r.named.lookup e.key = some name) : (base document).named.lookup e.key = some name := by
        obtain ⟨given, hg⟩ := base_named he
        rw [grown.name id hg] at hn
        rw [hg, hn]
      obtain rfl := eq_of_key unique he he' (one (reserved he hn) (reserved he' hn'))
      exact made plain
    · exact h he' plain hn' hl

/-- When the components are collected, their models were made from their nodes. -/
theorem sourced_collect (unique : Unrepeated document) (named : scope.space = .named)
    (hp : p.registry = .empty) (h : Runs (collect document (resolveNode document) scope) p () q) :
    Sourced document q.registry := by
  obtain ⟨⟨links, -, -, sourced⟩, -⟩ := collect_induction (distinction document)
    (I := fun links r => Distinct document (Outstanding document r) r links ∧
      Grows (fun _ => False) (base document) r ∧ Sourced document r)
    ⟨distinct_base document, .refl _, fun _ _ _ hl => by rw [base_models] at hl; cases hl⟩
    (fun links r s hr hl hi => by
      obtain ⟨hd, hg, hs⟩ := hi
      have g := (hl.1 hr.sound).2
      have grown : Grows (fun _ => False) r s := g.of_new
      have distinct := (hl.2 hr.sound nofun).1 _ _ hd
      refine ⟨distinct.narrow fun ho => hr.outstanding g.of_new ho, hg.trans g.of_new, ?_⟩
      intro e name m he plain hn hm
      obtain ⟨given, hgiven⟩ := hr.named e he
      rw [grown.name id hgiven] at hn
      obtain rfl := Option.some.inj hn
      cases hc : r.contains given with
      | true =>
        obtain ⟨k, hk⟩ := contains_iff.1 hc
        rw [g.lookup hk] at hm
        exact Option.some.inj hm ▸ hs he plain hgiven hk
      | false =>
        -- Nobody gets a name that is outstanding.
        rw [distinct.lookup_pending (hl.1 hr.sound).1.1 ⟨e, he, hgiven, hc⟩] at hm
        cases hm)
    (fun links e m r s location found he resolves hr hsub hi ha => by
      obtain ⟨hd, hg, hs⟩ := hi
      have g := (extends_assert ha hr.sound).2
      refine ⟨distinct_assert he hr (fun k hk => holds_iff.2 (Or.inr (hk.sub hsub))) hd ha,
        hg.trans g.of_new, hs.assert unique (oneKey_base document) hg hr he
          (fun _ => resolves.source) ha⟩)
    (fun links e ref m r s location found he resolves hr hm hi ha => by
      obtain ⟨hd, hg, hs⟩ := hi
      have g := (extends_assert ha hr.sound).2
      refine ⟨distinct_assert he hr (fun k hk => holds_aliasModel hm hk) hd ha,
        hg.trans g.of_new, hs.assert unique (oneKey_base document) hg hr he (fun plain => ?_) ha⟩
      rw [named] at resolves
      rw [resolves.isRef] at plain
      cases plain) hp h
  exact sourced

end Component

/-- A document that was read repeats no component. -/
theorem Datum.unrepeated {value : Datum} {document : Json} (form : value.toJson = .ok document) :
    Component.Unrepeated document := by
  have listedIn (group : Component.Group) :
      ((Component.listedIn (document.get "components") group).map
        fun e => (e.group.key, e.name)).Nodup := by
    unfold Component.listedIn
    split
    · next entries h =>
      have nodup : (Dict.keys entries).Nodup := by
        cases hc : document.get "components" with
        | obj components =>
          obtain ⟨d, hd⟩ := toJson_get form hc
          rw [hc] at h
          obtain ⟨d', hd'⟩ := toJson_get hd h
          exact nodup_keys hd'
        | _ =>
          rw [hc] at h
          cases h
      rw [List.map_map]
      exact (List.pairwise_map.1 nodup).map _ fun a b hne he => hne (Prod.mk.inj he).2
    · exact List.nodup_nil
  rw [Component.Unrepeated, Component.listed, List.map_flatMap]
  refine List.nodup_flatMap.2 ⟨fun group _ => listedIn group, ?_⟩
  have section' {group : Component.Group} {x : String × String}
      (hx : x ∈ (Component.listedIn (document.get "components") group).map
        fun e => (e.group.key, e.name)) :
      x.1 = group.key := by
    obtain ⟨e, he, rfl⟩ := List.mem_map.1 hx
    rw [Component.group_of_listedIn he]
  have apart : Component.groups.Pairwise fun a b => a.key ≠ b.key := by decide
  exact apart.imp fun hne x hx hx' => hne ((section' hx).symm.trans (section' hx'))

/-- Every component of an accepted document has a name, which no other component has and which for a
schema is the declared one. There is a model under the name, which was made from the node of the
component unless that is a reference. -/
theorem components_keep_names {τ : Type} {g g' : Graph τ} {document : Json}
    (h : Graph.Accepts g document g') (unique : Component.Unrepeated document) :
    (∀ e ∈ Component.listed document, ∃ name m, g'.registry.lookupRef e.key = some (.named name) ∧
      g'.registry.models.lookup name = some m ∧ (e.group.key = "schemas" → name = e.name) ∧
      (e.node.has "$ref" = false → m.source = e.source)) ∧
    ∀ e ∈ Component.listed document, ∀ e' ∈ Component.listed document,
      g'.registry.lookupRef e.key = g'.registry.lookupRef e'.key → e = e' := by
  obtain ⟨s, t, walked, hc, hp, hr, -⟩ := h.walked
  have collected := Component.collect_collected rfl hc
  have sourced : Component.Sourced document s.registry :=
    Component.sourced_collect unique rfl rfl hc
  have paths := Traversal.resolvePaths (T := extension document (Component.Undeclared document)) hp
  have before : Grows (fun _ => False) (Component.base document) s.registry :=
    (collected.extended Component.base_sound).2.of_new
  have after : Grows (fun _ => False) s.registry t.registry := (paths collected.ready.sound).2.of_new
  rw [hr]
  have found {e : Component.Entry} (he : e ∈ Component.listed document) :
      ∃ name, (Component.base document).named.lookup e.key = some name ∧
        s.registry.named.lookup e.key = some name ∧
        t.registry.lookupRef e.key = some (.named name) := by
    obtain ⟨name, hn⟩ := Component.base_named he
    have hs := before.name id hn
    refine ⟨name, hn, hs, ?_⟩
    rw [lookupRef, after.name id hs]
  refine ⟨fun e he => ?_, fun e he e' he' same => ?_⟩
  · obtain ⟨name, hn, hs, ht⟩ := found he
    obtain ⟨m, hm⟩ := contains_iff.1 (collected.model he hs)
    refine ⟨name, m, ht, after.lookup hm, fun schema => ?_, fun plain => sourced he plain hs hm⟩
    rw [Component.base_schema he schema] at hn
    exact (Option.some.inj hn).symm
  · obtain ⟨name, hn, -, ht⟩ := found he
    obtain ⟨name', hn', -, ht'⟩ := found he'
    rw [ht, ht'] at same
    obtain rfl : name = name' := congrArg Ref.name (Option.some.inj same)
    exact Component.eq_of_key unique he he' (Component.oneKey_base document hn hn')

/-- A schema and a response with the same name, a schema with the name that the response would get, a
copy of a schema, and a header with the content of a schema. -/
def namesakes : Json :=
  .obj [("openapi", .str "3.0.0"), ("components", .obj [
    ("schemas", .obj [("Pet", text), ("PetResponse", text),
      ("Copy", .obj [("$ref", .str "#/components/schemas/Pet")])]),
    ("responses", .obj [("Pet", .obj [("description", .str "")])]),
    ("headers", .obj [("Pet", .obj [("schema", text)])])])]
where
  text : Json := .obj [("type", .str "string")]

/-- The header is registered under a name of its own, and was made from the node with its name. -/
theorem components_keep_names_namesakes :
    Graph.Accepts (Graph.empty : Graph Unit) namesakes (Graph.empty.parse namesakes none).graph ∧
      Component.Unrepeated namesakes ∧
      Dict.keys ((Graph.empty : Graph Unit).parse namesakes none).graph.registry.models =
        ["Pet", "PetResponse", "PetResponse2", "PetHeader", "Copy"] ∧
      ∃ m, ((Graph.empty : Graph Unit).parse namesakes none).graph.registry.models.lookup "PetHeader" =
        some m ∧ m.source = Header.asParameter "Pet" [("schema", namesakes.text)] := by
  have accepted : Graph.Accepts (Graph.empty : Graph Unit) namesakes
      (Graph.empty.parse namesakes none).graph := .of_isOk (by decide +kernel)
  have unique : Component.Unrepeated namesakes := by
    unfold Component.Unrepeated
    decide +kernel
  let e : Component.Entry := ⟨⟨"headers", "Header", none⟩, "Pet", .obj [("schema", namesakes.text)]⟩
  have named : (((Graph.empty : Graph Unit).parse namesakes none).graph.registry.lookupRef e.key).map
      Ref.name = some "PetHeader" := by decide +kernel
  refine ⟨accepted, unique, by decide +kernel, ?_⟩
  have header : e ∈ Component.listed namesakes :=
    List.mem_flatMap.2 ⟨⟨"headers", "Header", none⟩, by simp [Component.groups], .head _⟩
  obtain ⟨name, m, hk, hm, -, source⟩ := (components_keep_names accepted unique).1 _ header
  rw [hk] at named
  obtain rfl := Option.some.inj named
  exact ⟨m, hm, source rfl⟩

end ApiGraph
