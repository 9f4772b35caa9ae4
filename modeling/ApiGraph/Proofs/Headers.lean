import ApiGraph.Proofs.Expansion
import ApiGraph.Proofs.Json.Kin
import ApiGraph.Proofs.Labels

/-! The headers of responses. A header in place becomes a parameter that is registered by its content,
and a reference to a header keeps the handle that it gets first; so a response has the same handles
wherever it is used. The model of a declared response does not keep them: its extras get the declared
headers when it is registered, in the place of their names. -/

namespace ApiGraph

open Resolving Registry

variable {document node v w : Json} {r s final : Registry} {name text : String} {ref ref' : Ref}
  {self : Resolver} {scope : Scope} {p q : Progress} {entries more : List (String × Json)}
  {given other : Dict String Ref}

namespace Header

/-- The handle of a header: that of the parameter with its content, or of its reference. -/
inductive Known (document : Json) (r : Registry) (name : String) : Json → Ref → Prop
  | inline {entries : List (String × Json)} {known : String}
    (plain : (Json.obj entries).has "$ref" = false)
    (content : r.structural.lookup (asParameter name entries).canonical = some known)
    (model : r.contains known = true) : Known document r name (.obj entries) (.named known)
  | outside {node : Json} {text : String} (spells : node.get? "$ref" = some (.str text))
    (outside : Pointer.isLocal text = false) : Known document r name node (.remote text)
  | inside {node : Json} {text : String} {ref : Ref} (spells : node.get? "$ref" = some (.str text))
    (here : Pointer.isLocal text = true) (leads : Arrives document r text ref) :
    Known document r name node ref

/-- A node is a reference into the document that comes to nothing there. -/
def Strays (document : Json) (node : Json) : Prop :=
  ∃ text refs lost, node.get? "$ref" = some (.str text) ∧ Pointer.isLocal text = true ∧
    Chase document node refs (.missing lost)

theorem alike_asParameter {ds es : List (String × Json)} (h : Json.Alike (.obj ds) (.obj es))
    (name : String) : Json.Alike (asParameter name ds) (asParameter name es) :=
  (h.put "name" (.str name)).put "in" _

namespace Known

theorem of_extends {R : String → Prop} (h : Known document r name node ref) (hr : r.Sound R)
    (x : r.Extends R s) : Known document s name node ref := by
  cases h with
  | inline plain content model =>
    exact .inline plain ((x hr).2.content content) ((x hr).2.contains model)
  | outside spells outside => exact .outside spells outside
  | inside spells here leads =>
    exact .inside spells here (Component.arrives_of_extends leads hr x)

/-- Headers that are the same up to the order of keys have handles of the same name, unless they
stray. -/
theorem name_eq (h : Known document r name v ref) (h' : Known document r name w ref')
    (same : Json.Alike v w) (kept : ¬ Strays document v) : ref.name = ref'.name := by
  -- The two spell the same reference, or none.
  have spelled {text : String} : v.get? "$ref" = some (.str text) ↔ w.get? "$ref" = some (.str text) := by
    obtain ⟨hv, hw⟩ | ⟨a, b, hv, hw, alike⟩ := same.get? "$ref"
    · rw [hv, hw]
    · rw [hv, hw]
      cases alike <;> simp
  have text_eq {text text' : String} (hv : v.get? "$ref" = some (.str text))
      (hw : w.get? "$ref" = some (.str text')) : text = text' :=
    Json.str.inj (Option.some.inj ((spelled.1 hv).symm.trans hw))
  have refers {node : Json} {text : String} (spells : node.get? "$ref" = some (.str text)) :
      node.has "$ref" = true := by rw [Json.has, spells]; rfl
  cases h with
  | inline plain content model =>
    cases h' with
    | inline plain' content' model' =>
      rw [Json.canonical_eq_iff.2 (alike_asParameter same name), content'] at content
      exact (Option.some.inj content).symm
    | outside spells _ => rw [same.has_eq, refers spells] at plain; cases plain
    | inside spells _ _ => rw [same.has_eq, refers spells] at plain; cases plain
  | outside spells outside =>
    cases h' with
    | inline plain' _ _ => rw [← same.has_eq, refers spells] at plain'; cases plain'
    | outside spells' _ => exact text_eq spells spells'
    | inside spells' here _ =>
      rw [text_eq spells spells', here] at outside
      cases outside
  | inside spells here leads =>
    cases h' with
    | inline plain' _ _ => rw [← same.has_eq, refers spells] at plain'; cases plain'
    | outside spells' outside =>
      rw [text_eq spells spells', outside] at here
      cases here
    | inside spells' _ leads' =>
      obtain rfl := text_eq spells spells'
      cases leads with
      | out _ chase => exact absurd ⟨_, _, _, spells, here, (Chase.of_link spells).2 chase⟩ kept
      | inside _ _ named =>
        cases leads' with
        | out _ chase => exact absurd ⟨_, _, _, spells, here, (Chase.of_link spells).2 chase⟩ kept
        | inside _ _ named' => exact Option.some.inj (named.symm.trans named')

end Known

/-- A header that is resolved gets its handle. -/
theorem resolve_known (hself : (fidelity document).Sound self)
    (hp : p.registry.Sound (Component.Undeclared document)) (trusted : p.registry.Trusted document)
    (clean : q.registry.Clean document)
    (h : Runs (resolve document self scope name node) p ref q) :
    Known document q.registry name node ref := by
  obtain ⟨-, hr⟩ | ⟨entries, m, t, found, u, rfl, plain, -, ha, rfl, rfl⟩ := resolve_runs h
  · obtain ⟨text, spells, handle⟩ := Traversal.resolveReference hself hr
    obtain ⟨text', spells', ⟨outside, rfl, rfl⟩ | ⟨here, -⟩ | ⟨here, -⟩⟩ := resolveReference_runs hr
    · exact .outside spells' outside
    all_goals
      obtain rfl := Json.str.inj (Option.some.inj (spells.symm.trans spells'))
      exact .inside spells here ((handle.2 hp trusted).2 clean)
  · have traversed := Traversal.resolveHeader hself h
    have sound := (traversed.1 hp).1
    have plain' : (asParameter name entries).has "$ref" = false := by
      rw [Traversal.has_asParameter, plain]
      rfl
    obtain ⟨known, hf, content⟩ := register_indexed (assert_model plain' ha)
    rw [hf]
    exact .inline plain content (sound.1.model_of_content content)

/-- The names of the handles of headers. -/
def names (given : Dict String Ref) : Dict String Json := given.map fun x => (x.1, .str x.2.name)

/-- Headers have these handles, one by one. -/
def Each (document : Json) (r : Registry) (entries : List (String × Json))
    (given : Dict String Ref) : Prop :=
  List.Forall₂ (fun entry x => x.1 = entry.1 ∧ Known document r entry.1 entry.2 x.2) entries given

/-- Headers that are resolved get their handles, which they keep. -/
theorem resolveEach_known (hself : (fidelity document).Sound self)
    (hp : p.registry.Sound (Component.Undeclared document)) (trusted : p.registry.Trusted document)
    (after : q.registry.Extends (Component.Undeclared document) final) (clean : final.Clean document)
    (h : Runs (resolveEach document self scope entries) p given q) :
    Each document final entries given := by
  induction entries generalizing p given with
  | nil =>
    obtain ⟨rfl, -⟩ := runs_pure.1 h
    exact .nil
  | cons entry rest ih =>
    obtain ⟨ref, more, t, hr, hm, rfl⟩ := resolveEach_runs h
    have here : p.registry.Trusts document t.registry := Traversal.resolveHeader hself hr
    have sound := (here.1 hp).1
    have rest : t.registry.Trusts document q.registry := Traversal.resolveEachHeader hself hm
    have later := rest.1.trans after
    have known := resolve_known hself hp trusted (clean.of_extends sound later) hr
    exact .cons ⟨rfl, known.of_extends sound later⟩ (ih sound (here.2 hp trusted) hm)

/-- The headers of a node are resolved one by one. -/
theorem resolveAll_known (hself : (fidelity document).Sound self)
    (hp : p.registry.Sound (Component.Undeclared document)) (trusted : p.registry.Trusted document)
    (after : q.registry.Extends (Component.Undeclared document) final) (clean : final.Clean document)
    (h : Runs (resolveAll document self scope (.obj entries)) p given q) :
    Each document final entries given := by
  unfold resolveAll at h
  rw [runs_ite] at h
  split at h
  · next none =>
    obtain ⟨rfl, -⟩ := runs_pure.1 h
    cases entries with
    | nil => exact .nil
    | cons _ _ => cases none
  · exact resolveEach_known hself hp trusted after clean h

namespace Each

/-- Each header has one handle, and nothing else has. -/
theorem lookup (h : Each document r entries given) (name : String) :
    (entries.lookup name = none ∧ given.lookup name = none) ∨
      ∃ v ref, entries.lookup name = some v ∧ given.lookup name = some ref ∧
        Known document r name v ref := by
  induction h with
  | nil => exact .inl ⟨rfl, rfl⟩
  | @cons entry x rest more here _ ih =>
    obtain ⟨key, v⟩ := entry
    obtain ⟨key', ref⟩ := x
    obtain ⟨rfl, known⟩ : key' = key ∧ Known document r key v ref := here
    rw [List.lookup_cons, List.lookup_cons]
    cases hk : name == key' with
    | true => exact .inr ⟨v, ref, rfl, rfl, eq_of_beq hk ▸ known⟩
    | false => exact ih

/-- Headers that are the same up to the order of keys have handles of the same names, but for those
that stray. -/
theorem names_eq (h : Each document r entries given) (h' : Each document r more other)
    (same : Json.Alike (.obj entries) (.obj more)) {name : String}
    (kept : ∀ v, entries.lookup name = some v → ¬ Strays document v) :
    (given.lookup name).map Ref.name = (other.lookup name).map Ref.name := by
  have both : (entries.lookup name = none ∧ more.lookup name = none) ∨ ∃ v w,
      entries.lookup name = some v ∧ more.lookup name = some w ∧ Json.Alike v w := same.get? name
  obtain ⟨none, hg⟩ | ⟨v, ref, hv, hg, known⟩ := h.lookup name <;>
    obtain ⟨none', ho⟩ | ⟨w, ref', hw, ho, known'⟩ := h'.lookup name
  · rw [hg, ho]
  · simp [none, hw] at both
  · simp [none', hv] at both
  · obtain ⟨none, -⟩ | ⟨v', w', hv', hw', alike⟩ := both
    · cases hv.symm.trans none
    · obtain rfl := Option.some.inj (hv.symm.trans hv')
      obtain rfl := Option.some.inj (hw.symm.trans hw')
      rw [hg, ho, Option.map_some, Option.map_some, known.name_eq known' alike (kept v hv)]

end Each

end Header

namespace Component

variable {e : Entry} {es : List Entry} {link : Link Model} {m : Model}

/-- Each component is resolved in a run of its own. -/
theorem resolveEach_between {resolved : List (Entry × Link Model)}
    (hr : Ready document es p.registry)
    (h : Runs (resolveEach (resolveNode document) scope es) p resolved q) (he : e ∈ es) :
    ∃ link s t, Runs (resolve (resolveNode document) scope e) s link t ∧
      p.registry.Trusts document s.registry ∧ t.registry.Trusts document q.registry := by
  induction es generalizing p resolved with
  | nil => cases he
  | cons first rest ih =>
    obtain ⟨link, more, s, hl, hm, rfl⟩ := resolveEach_runs h
    have here : p.registry.Trusts document s.registry :=
      Traversal.resolveComponent (T := fidelity document) hr.settled hr.titled hl
    have ready := hr.tail.extend here.1
    rcases List.mem_cons.1 he with rfl | he
    · exact ⟨link, p, s, hl, .refl _, (resolveEach_traversed (fidelity document) ready hm).1⟩
    · obtain ⟨link, u, v, run, before, after⟩ := ih ready hm he
      exact ⟨link, u, v, run, here.trans before, after⟩

/-- Each component of a document is resolved when the tables agree with the document, and nothing
that is registered then is taken back. -/
theorem collect_between (hp : p.registry = .empty)
    (h : Runs (collect document (resolveNode document) scope) p () q) (he : e ∈ listed document) :
    ∃ link s t, Runs (resolve (resolveNode document) scope e) s link t ∧
      s.registry.Sound (Undeclared document) ∧ s.registry.Trusted document ∧
      t.registry.Extends (Undeclared document) q.registry := by
  obtain ⟨resolved, u, v, order, hes, hf, ho, hperm⟩ := collect_runs h
  rw [hp] at hes
  obtain ⟨link, s, t, run, before, after⟩ := resolveEach_between (base_ready document) hes he
  obtain ⟨hx, names, hres⟩ := resolveEach_traversed (extension document (Undeclared document))
    (base_ready document) hes
  have ready : Ready document (listed document) u.registry := (base_ready document).extend hx
  have listed : ∀ x ∈ resolved, x.1 ∈ listed document := fun x hm => names ▸ List.mem_map_of_mem hm
  obtain ⟨-, registered, -⟩ := register_induction (I := fun _ => True) ready listed
    (fun e m hm => Resolves.plain (hres (e, .model m) hm)) (fun _ _ _ _ _ _ _ _ _ _ => trivial) trivial
    hf
  obtain ⟨-, copied, -⟩ := aliased_induction (I := fun _ => True) (ready.extend registered)
    (fun x hm => listed _ (mem_aliases (hperm.mem_iff.1 hm)))
    (fun _ _ _ _ _ _ _ _ _ _ _ _ => trivial) trivial ho
  exact ⟨link, s, t, run, (before.1 base_sound).1, before.2 base_sound (base_trusted document),
    (after.1.trans registered).trans copied⟩

/-- Only responses and request bodies are declared with a form. -/
theorem group_of_hint {group : Group} {form : Schema.Form} (hg : group ∈ groups)
    (hint : group.hint = some form) :
    group.key ≠ "headers" ∧ (form = .response ∨ form = .requestBody) := by
  simp only [groups, List.mem_cons, List.not_mem_nil, or_false] at hg
  rcases hg with rfl | rfl | rfl | rfl | rfl | rfl <;> cases hint <;> decide

/-- A response or a request body is resolved into a model that has the names of its headers. -/
theorem resolve_holder (hg : e.group ∈ groups)
    (reads : e.group.hint = some (Schema.formOf e.node e.group.hint))
    (h : Runs (resolve (resolveNode document) scope e) p link q) :
    ∃ m given scope' depth, link = .model m ∧
      Runs (Header.resolveAll document (resolveWithin document depth) scope' (e.node.get "headers")) p
        given q ∧
      m.extras = if given.isEmpty then [] else [("headers", .obj (Header.names given))] := by
  obtain ⟨apart, form⟩ := group_of_hint hg reads
  obtain ⟨_, _, _, -, -, -, -, key⟩ | ⟨_, out, ho, rfl, -⟩ := resolve_runs h
  · exact absurd key apart
  obtain ⟨depth, hf⟩ := resolveNode_runs ho
  obtain ⟨-, ⟨hf, -⟩ | ⟨hf, -⟩ | ⟨hf, -⟩ | ⟨-, kind, m, -, hm, rfl⟩ | ⟨hf, -⟩⟩ := resolveForm_runs hf
  · exact absurd form (by rw [hf]; decide)
  · exact absurd form (by rw [hf]; decide)
  · exact absurd form (by rw [hf]; decide)
  · obtain ⟨given, hh, -, -, -, -, -, -, extras⟩ := Header.resolveHolder_runs hm
    exact ⟨m, given, _, depth, rfl, hh, extras⟩
  · exact absurd form (by rw [hf]; decide)

end Component

/-- No component that was read has a key twice. -/
theorem Datum.nodup_component {value : Datum} (form : value.toJson = .ok document)
    {e : Component.Entry} (he : e ∈ Component.listed document) (hn : e.node = .obj entries) :
    (Dict.keys entries).Nodup := by
  obtain ⟨group, -, he⟩ := List.mem_flatMap.1 he
  unfold Component.listedIn at he
  split at he
  · next sectioned hs =>
    obtain ⟨entry, hm, rfl⟩ := List.mem_map.1 he
    cases hc : document.get "components" with
    | obj components =>
      obtain ⟨d, hd⟩ := toJson_get form hc
      rw [hc] at hs
      obtain ⟨d', hd'⟩ := toJson_get hd hs
      obtain ⟨given, made, hmade, rfl⟩ := toJson_obj hd'
      obtain ⟨d'', hd''⟩ := mem_entriesToJson hmade (Dict.mem_ofEntries hm)
      exact nodup_keys (hd''.trans (congrArg Except.ok hn))
    | _ =>
      rw [hc] at hs
      cases hs
  · cases he

variable {τ : Type} {g g' : Graph τ}

/-- A component of an accepted document that is no reference has a model that was made from it. -/
theorem Graph.Accepts.component (h : Graph.Accepts g document g')
    (unique : Component.Unrepeated document) {e : Component.Entry} (he : e ∈ Component.listed document)
    (plain : e.node.has "$ref" = false) :
    ∃ name m, g'.registry.lookupRef e.key = some (.named name) ∧
      g'.registry.models.lookup name = some m ∧ m.source = e.source := by
  obtain ⟨s, t, walked, hc, hp, hr, -⟩ := h.walked
  have collected := Component.collect_collected rfl hc
  have paths := Traversal.resolvePaths (T := extension document (Component.Undeclared document)) hp
  have grown : Grows (fun _ => False) s.registry t.registry := (paths collected.ready.sound).2.of_new
  obtain ⟨name, hn⟩ := collected.ready.named e he
  obtain ⟨m, hm⟩ := contains_iff.1 (collected.model he hn)
  refine ⟨name, m, ?_, hr ▸ grown.lookup hm, Component.sourced_collect unique rfl rfl hc he plain hn hm⟩
  rw [hr, lookupRef, grown.name id hn]

/-- The extras of a component are published as they are declared. -/
theorem Graph.Accepts.published (h : Graph.Accepts g document g')
    (unique : Component.Unrepeated document) {e : Component.Entry} (he : e ∈ Component.listed document)
    (apart : e.group.key ≠ "headers") (plain : e.node.has "$ref" = false)
    {fields : List (String × Json)} (object : e.node = .obj fields) (single : (Dict.keys fields).Nodup)
    {key : String} (extra : Schema.isExtra key = true) (declared : e.node.get? key = some v) :
    ∃ name m, g'.registry.lookupRef e.key = some (.named name) ∧
      g'.registry.models.lookup name = some m ∧ m.extras.lookup key = some v := by
  obtain ⟨name, m, found, registered, source⟩ := h.component unique he plain
  refine ⟨name, m, found, registered, (h.isLabelled registered).extras ?_⟩
  rw [source, Component.Entry.source_of_ne fun _ _ => apart, object,
    Schema.lookup_extras_obj single, if_pos extra]
  rwa [object] at declared

/-- A status of an operation uses a component: it is the node of the component, or a reference that leads
there past no declared header. -/
def Status.Uses (document : Json) (a : Status) (e : Component.Entry) : Prop :=
  ∃ refs, Chase document a.entry.2 refs (.found e.node) ∧ Component.Headerless document refs

/-- Names of models that do not read as references keep the tables of an accepted document in agreement
with it. -/
theorem Graph.Accepts.clean (h : Graph.Accepts g document g')
    (names : ∀ name, g'.registry.contains name = true → Pointer.isLocal name = false) :
    g'.registry.Clean document := by
  obtain ⟨visits, account⟩ := h.account
  obtain ⟨s, collected, mid⟩ := account.collected
  exact clean_of_models (Component.collect_collected rfl collected) (mid.after _) fun name => names name

/-- A declared response or request body had the names of the models of its headers when it was
resolved. -/
theorem Graph.Accepts.headers_given (h : Graph.Accepts g document g') {e : Component.Entry}
    (he : e ∈ Component.listed document) (reads : e.group.hint = some (Schema.formOf e.node e.group.hint))
    (names : ∀ name, g'.registry.contains name = true → Pointer.isLocal name = false)
    (headers : e.node.get "headers" = .obj entries) (full : entries ≠ []) :
    ∃ given, Header.Each document g'.registry entries given ∧
      ∃ scope s m t, Runs (Component.resolve (resolveNode document) scope e) s (.model m) t ∧
        m.extras = [("headers", .obj (Header.names given))] := by
  obtain ⟨visits, account⟩ := h.account
  obtain ⟨_, collected, mid⟩ := account.collected
  obtain ⟨link, s, u, run, sound, trusted, after⟩ := Component.collect_between rfl collected he
  obtain ⟨m, given, _, depth, rfl, hh, extras⟩ :=
    Component.resolve_holder (Component.group_of_listed he) reads run
  rw [headers] at hh
  have known : Header.Each document g'.registry entries given :=
    Header.resolveAll_known (Traversal.sound_resolveWithin _ depth) sound trusted
      (after.trans (mid.after _)) (h.clean names) hh
  refine ⟨given, known, _, s, m, u, run, ?_⟩
  rw [extras, if_neg]
  intro empty
  rw [List.isEmpty_iff.1 empty] at known
  exact full (List.forall₂_nil_right_iff.1 known)

/-- An operation that uses a component gets headers with the names that the component was given. -/
theorem Graph.Account.headers_used {visits : List Visit} (account : Graph.Account document g' visits)
    (clean : g'.registry.Clean document) (unique : Component.Unrepeated document)
    (names : ∀ name, g'.registry.contains name = true → Pointer.isLocal name = false)
    {e : Component.Entry} (headers : e.node.get "headers" = .obj entries) {given : Dict String Ref}
    (known : Header.Each document g'.registry entries given) {v : Visit} (hv : v ∈ visits) {stop : Stop}
    (hs : stop ∈ v.stops) :
    ∃ statuses body, stop.method.Expanded (v.item.get stop.method.verb.word) statuses body ∧
      ∀ a ∈ statuses, a.Uses document e → ∀ r ∈ a.responses, ∀ name,
        (∀ v, entries.lookup name = some v → ¬ Header.Strays document v) →
        (r.headers.lookup name).map Ref.name = (given.lookup name).map Ref.name := by
  obtain ⟨scope, p, q, mid, run, after⟩ := account.operation hv hs
  obtain ⟨statuses, body, s, t, expanded, first, chain, rest, -⟩ := Method.resolve_expanded run
  refine ⟨statuses, body, expanded, fun a ha uses r hr name kept => ?_⟩
  obtain ⟨refs, chase, headerless⟩ := uses
  obtain ⟨u, w, before, resolved, later⟩ := chain.between (fun _ _ _ resolved => resolved.leads) ha
  have ending : ∀ R : String → Prop, w.registry.Extends R g'.registry :=
    fun R => ((later.trans rest).grown R).trans (after R)
  have mid := mid.leads (first.trans before) fun R => (resolved.leads.grown R).trans (ending R)
  obtain ⟨_, found, x, hh, leads, same⟩ := resolved.headers
  -- the status stands for the node of the component, up to the order of keys
  have alike := ((resolved.stands.answered mid).found unique names refs _ chase headerless).1
  have alike : Json.Alike (.obj entries) (a.node.get "headers") := headers ▸ (alike.get "headers").symm
  obtain ⟨more, hmore⟩ : ∃ more, a.node.get "headers" = .obj more := by
    generalize a.node.get "headers" = v at alike
    cases alike with
    | obj _ _ => exact ⟨_, rfl⟩
  rw [hmore] at hh alike
  have known' : Header.Each document g'.registry more found :=
    Header.resolveAll_known (Traversal.sound_resolveNode _) mid.ready.sound
      (fun _ => (mid.faithful unique names).2) ((leads.grown _).trans (ending _)) clean hh
  rw [same r hr]
  exact (known.names_eq known' alike kept).symm

/-- The model that is registered for a declared response or request body has the declared headers among
its extras, and not the names of the models that they are resolved into. These names it had when it
was resolved, and every operation that uses the component gets headers with the same names, but for
references that lead nowhere in the document. -/
theorem headers_published_as_declared (h : Graph.Accepts g document g')
    (unique : Component.Unrepeated document) {e : Component.Entry} (he : e ∈ Component.listed document)
    (holder : e.group.hint ≠ none) (plain : e.node.has "$ref" = false)
    (single : ∀ fields, e.node = .obj fields → (Dict.keys fields).Nodup)
    (headers : e.node.get "headers" = .obj entries) (full : entries ≠ []) :
    (∃ name m, g'.registry.lookupRef e.key = some (.named name) ∧
      g'.registry.models.lookup name = some m ∧ m.extras.lookup "headers" = some (.obj entries)) ∧
    ((∀ name, g'.registry.contains name = true → Pointer.isLocal name = false) →
      e.group.hint = some (Schema.formOf e.node e.group.hint) →
      ∃ given, Header.Each document g'.registry entries given ∧
        (∃ scope s m t, Runs (Component.resolve (resolveNode document) scope e) s (.model m) t ∧
          m.extras = [("headers", .obj (Header.names given))]) ∧
        ∃ visits, Graph.Account document g' visits ∧ ∀ v ∈ visits, ∀ stop ∈ v.stops,
          ∃ statuses body, stop.method.Expanded (v.item.get stop.method.verb.word) statuses body ∧
            ∀ a ∈ statuses, a.Uses document e → ∀ r ∈ a.responses, ∀ name,
              (∀ v, entries.lookup name = some v → ¬ Header.Strays document v) →
              (r.headers.lookup name).map Ref.name = (given.lookup name).map Ref.name) := by
  obtain ⟨form, hint⟩ := Option.ne_none_iff_exists'.1 holder
  obtain ⟨apart, -⟩ := Component.group_of_hint (Component.group_of_listed he) hint
  constructor
  · obtain ⟨fields, object⟩ : ∃ fields, e.node = .obj fields := by
      cases hn : e.node with
      | obj fields => exact ⟨fields, rfl⟩
      | _ => rw [hn] at headers; cases headers
    refine h.published unique he apart plain object (single fields object) (by decide) ?_
    have present : e.node.has "headers" = true := by
      by_contra absent
      rw [Json.get_of_has (by simpa using absent)] at headers
      cases headers
    obtain ⟨v, hv⟩ := Option.isSome_iff_exists.1 present
    rw [Json.get, hv] at headers
    exact headers ▸ hv
  · intro names reads
    obtain ⟨given, known, made⟩ := h.headers_given he reads names headers full
    obtain ⟨visits, account⟩ := h.account
    exact ⟨given, known, made, visits, account, fun v hv stop hs =>
      account.headers_used (h.clean names) unique names headers known hv hs⟩

/-- A response with a header that is declared under the components. -/
def rated : Json := .obj [("headers", .obj [("Rate", .link (Pointer.component "headers" "Rate"))])]

/-- A document with an operation that refers to the response. -/
def rating : Json :=
  .obj [("openapi", .str "3.0.0"),
    ("components", .obj [("responses", .obj [("Rated", rated)]), ("headers", .obj [("Rate", .obj [])])]),
    ("paths", .obj [("/a", .obj [("get", .obj [("responses", .obj [
      ("200", .link (Pointer.component "responses" "Rated"))])])])])]

/-- The graph that the document leaves. -/
def rating.graph : Graph Unit := (Graph.empty.parse rating none).graph

/-- The names of the headers of all responses of a graph. -/
def Graph.headed (g : Graph Unit) : List (String × String) :=
  g.methods.flatMap fun m => m.2.responses.flatMap fun r => r.headers.map fun x => (x.1, x.2.name)

theorem rating.accepted : Graph.Accepts Graph.empty rating graph := .of_isOk (by decide +kernel)

/-- The response has its header as it is declared, and the operation that refers to it has the name of
the model of the header. -/
theorem headers_published_as_declared_rating :
    rating.graph.headed = [("Rate", "Rate")] ∧
      (∃ name m, rating.graph.registry.lookupRef (Pointer.component "responses" "Rated") =
          some (.named name) ∧ rating.graph.registry.models.lookup name = some m ∧
        m.extras.lookup "headers" =
          some (.obj [("Rate", .link (Pointer.component "headers" "Rate"))])) ∧
      ∃ given, Header.Each rating rating.graph.registry
        [("Rate", .link (Pointer.component "headers" "Rate"))] given := by
  have unique : Component.Unrepeated rating := by
    unfold Component.Unrepeated
    decide +kernel
  let e : Component.Entry := ⟨⟨"responses", "Response", some .response⟩, "Rated", rated⟩
  have he : e ∈ Component.listed rating := List.mem_of_getElem? (i := 0) rfl
  have names : ((Dict.keys rating.graph.registry.models).all (!Pointer.isLocal ·)) = true := by
    decide +kernel
  have single : ∀ fields, e.node = .obj fields → (Dict.keys fields).Nodup := by
    intro fields hf
    obtain rfl := Json.obj.inj hf
    decide
  have headers : e.node.get "headers" =
      .obj [("Rate", .link (Pointer.component "headers" "Rate"))] := rfl
  obtain ⟨published, given⟩ := headers_published_as_declared rating.accepted unique he nofun rfl single
    headers nofun
  obtain ⟨given, each, -⟩ := given (fun name hn => by
    simpa using List.all_eq_true.1 names name ((Dict.mem_keys_iff_has _ _).2 hn)) rfl
  exact ⟨by decide +kernel, published, given, each⟩

/-- What is published for the header is the reference and not the name of its model. -/
theorem header_published_unresolved :
    Graph.Accepts Graph.empty rating rating.graph ∧ rating.graph.headed = [("Rate", "Rate")] ∧
      ((rating.graph.registry.models.lookup "Rated").bind (·.extras.lookup "headers")).map
        (fun v => ((v.get "Rate").text?, ((v.get "Rate").get "$ref").text?)) =
          some (none, some (Pointer.component "headers" "Rate")) :=
  ⟨rating.accepted, by decide +kernel, by decide +kernel⟩

end ApiGraph
