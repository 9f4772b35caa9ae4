import ApiGraph.Proofs.Fidelity
import ApiGraph.Proofs.Resolve.Moments

/-! The node that a node of an operation stands for is the one at which its chase ends, although
registered components answer for themselves. It is not so when a chase comes to nothing after it has
passed a declared component: the placeholder that is registered for the component answers then. -/

namespace ApiGraph

open Resolving Registry

/-- The outcome of a dereference agrees with the end of a chase. -/
def Ending.Agrees (location : String) : Ending → Except Failure Json → Prop
  | .found v, x => ∃ w, x = .ok w ∧ w.isObject = true ∧ w.has "$ref" = false ∧ Json.Alike w v
  | .missing ref, x => x = .error (.missingReference ref location)
  | .foreign v, x => x = .error (.malformed (.expectedNode v.typeName) location)

variable {document node : Json} {r s : Registry} {text location : String} {refs : List String}
  {ending : Ending}

/-- A node that the registry answers with stands for the end of the chase. -/
theorem registeredNode_represents {found : Json} (faithful : r.Faithful document)
    (clean : r.Clean document) (here : Pointer.isLocal text = true)
    (h : registeredNode r text = some found) :
    found.isObject = true ∧ Represents document text found := by
  unfold registeredNode Registry.resolve at h
  have absent : r.contains text = false := by
    by_contra hc
    rw [clean.model (by simpa using hc)] at here
    cases here
  rw [if_neg (by simp [absent])] at h
  cases hn : r.named.lookup text with
  | none =>
    rw [hn] at h
    simp [contains_eq_false_iff.1 absent] at h
  | some name =>
    rw [hn] at h
    cases hm : r.models.lookup name with
    | none => simp [hm] at h
    | some m =>
      obtain ⟨object, rfl⟩ : m.source.isObject = true ∧ m.source = found := by simpa [hm] using h
      exact ⟨object, faithful.source here hn hm object⟩

/-- What the registry answers for a reference of a node is admitted at the end of its chase. -/
theorem admits_of_registeredNode {found : Json} (faithful : r.Faithful document)
    (clean : r.Clean document) (here : Pointer.isLocal text = true)
    (spells : node.get? "$ref" = some (.str text)) (chase : Chase document node refs ending)
    (headerless : Component.Headerless document refs) (h : registeredNode r text = some found) :
    found.isObject = true ∧ ending.Admits document refs found := by
  obtain ⟨object, _, _, other, admitted⟩ := registeredNode_represents faithful clean here h
  obtain ⟨rfl, rfl⟩ := ((Chase.of_link spells).1 chase).unique other
  exact ⟨object, admitted headerless⟩

/-- Where the registry is faithful, following a chain through it ends as the chase does, unless the
chase comes to nothing after it has passed a declared component. -/
theorem followChain_agrees {fuel : Nat} (faithful : r.Faithful document) (clean : r.Clean document)
    (chase : Chase document node refs ending) (headerless : Component.Headerless document refs)
    (direct : ∀ ref, ending = .missing ref → ¬ Component.Passed document refs)
    (enough : refs.length < fuel) :
    ending.Agrees location (followChain document r location fuel node) := by
  obtain ⟨fuel, rfl⟩ := Nat.exists_eq_add_one_of_ne_zero (Nat.ne_zero_of_lt enough)
  induction chase generalizing fuel with
  | found object plain =>
    refine ⟨_, ?_, object, by simp [Json.has, plain], .refl _⟩
    simp [followChain, object, plain]
  | foreign other => simp [Ending.Agrees, followChain, other]
  | @missing node v refers lost =>
    have object := Json.isObject_of_get? refers
    cases v with
    | str text =>
      by_cases here : Pointer.isLocal text = true
      · have nowhere : Pointer.resolve document text = none := by
          simpa [Json.target?, refers] using lost
        have unknown : registeredNode r text = none := by
          refine Option.eq_none_iff_forall_ne_some.2 fun found hf => ?_
          obtain ⟨-, _, -, none⟩ := admits_of_registeredNode faithful clean here refers
            (.missing refers lost) headerless hf
          exact List.not_mem_nil none
        simp [Ending.Agrees, followChain, object, refers, here, unknown, nowhere, Json.shown]
      · simp [Ending.Agrees, followChain, object, refers, here, Json.shown]
    | _ => simp [Ending.Agrees, followChain, object, refers]
  | @next node target text refs ending spells leads rest ih =>
    have object := Json.isObject_of_get? spells
    have here := Pointer.isLocal_of_resolve leads
    have step : followChain document r location (fuel + 1) node =
        (registeredNode r text).elim (followChain document r location fuel target) .ok := by
      simp only [followChain, object, spells, here, leads]
      cases registeredNode r text <;> rfl
    rw [step]
    cases hf : registeredNode r text with
    | none =>
      obtain ⟨fuel, rfl⟩ := Nat.exists_eq_add_one_of_ne_zero
        (Nat.ne_zero_of_lt (Nat.lt_of_succ_lt_succ enough))
      refine ih (fun e he hm => headerless e he (List.mem_cons_of_mem _ hm)) (fun ref hr => ?_) fuel
        (Nat.lt_of_succ_lt_succ enough)
      rintro ⟨e, he, hm⟩
      exact direct ref hr ⟨e, he, List.mem_cons_of_mem _ hm⟩
    | some found =>
      obtain ⟨object, admitted⟩ := admits_of_registeredNode faithful clean here spells
        (.next spells leads rest) headerless hf
      cases ending with
      | found v =>
        refine ⟨found, rfl, object, ?_, admitted⟩
        rw [Json.Alike.has_eq admitted, rest.plain_of_found]
      | missing ref => exact absurd admitted (direct ref rfl)
      | foreign _ => exact admitted.elim

/-- Where the registry is faithful, a chain that it follows to the end has a chase. -/
theorem chase_of_followChain {w : Json} {fuel : Nat} (faithful : r.Faithful document)
    (clean : r.Clean document) (h : followChain document r location fuel node = .ok w) :
    ∃ refs ending, Chase document node refs ending := by
  induction fuel generalizing node with
  | zero => cases h
  | succ fuel ih =>
    cases object : node.isObject with
    | false => exact ⟨_, _, .foreign object⟩
    | true =>
      cases refers : node.get? "$ref" with
      | none => exact ⟨_, _, .found object refers⟩
      | some v =>
        cases v with
        | str text =>
          simp only [followChain, object, refers, Bool.not_true, Bool.false_eq_true, if_false] at h
          split at h
          · cases h
          next here =>
          cases known : registeredNode r text with
          | some found =>
            obtain ⟨-, refs, ending, chase, -⟩ :=
              registeredNode_represents faithful clean (by simpa using here) known
            exact ⟨refs, ending, (Chase.of_link refers).2 chase⟩
          | none =>
            rw [known] at h
            cases leads : Pointer.resolve document text with
            | none =>
              rw [leads] at h
              cases h
            | some target =>
              rw [leads] at h
              obtain ⟨refs, ending, rest⟩ := ih h
              exact ⟨_, ending, .next refers leads rest⟩
        | _ =>
          simp only [followChain, object, refers, Bool.not_true, Bool.false_eq_true, if_false] at h
          cases h

/-- In each registry of the second phase, names are clean if those of its models are. -/
theorem clean_of_models (collected : Component.Collected document r)
    (x : r.Extends (Component.Undeclared document) s)
    (clean : ∀ name, s.contains name = true → Pointer.isLocal name = false) : s.Clean document := by
  refine ⟨fun {name} => clean name, fun {e name} he hn => ?_⟩
  have g := (x collected.ready.sound).2
  obtain ⟨given, hg⟩ := collected.ready.named e he
  rw [(g.of_new (P := fun _ => False)).name id hg] at hn
  obtain rfl := Option.some.inj hn
  exact clean given (g.contains (collected.model he hg))

theorem dereference_run (document : Json) (scope : Scope) (node : Json) (p : Progress) :
    (dereference document scope node).run.run p =
      (followChain document p.registry scope.location (document.size + 2) node, p) := by
  rw [dereference, run_bind]
  change (lift (followChain document p.registry scope.location (document.size + 2) node)).run.run p = _
  generalize followChain document p.registry scope.location (document.size + 2) node = x
  cases x <;> rfl

/-- A registry of the second phase: the components of the document were collected, and one of the nodes
that stand for others is dereferenced next. -/
def Dereferencing (document : Json) (r : Registry) : Prop :=
  ∃ s other, Runs (Component.collect document (resolveNode document) (Scope.root.phase .named))
      .start () s ∧
    Walk.Asked document (resolveNode document) (Scope.root.phase .structural) (Walk.listed document) s
      r other

/-- Whenever a node is dereferenced while the paths of a document are resolved, a node whose chase
comes to an end stands for what the chase ends with, and nothing else changes. Models have names that
do not read as references, and a chase that comes to nothing passes no declared component. -/
theorem dereference_agrees_with_chase {p : Progress} (scope : Scope)
    (unique : Component.Unrepeated document) (moment : Dereferencing document p.registry)
    (clean : ∀ name, p.registry.contains name = true → Pointer.isLocal name = false)
    (chase : Chase document node refs ending) (headerless : Component.Headerless document refs)
    (direct : ∀ ref, ending = .missing ref → ¬ Component.Passed document refs) :
    ∃ x, (dereference document scope node).run.run p = (x, p) ∧ ending.Agrees scope.location x := by
  obtain ⟨s, other, collected, asked⟩ := moment
  have ready := Component.collect_collected rfl collected
  obtain ⟨_, grown⟩ : (fidelity document).Reaches s.registry p.registry := asked.reaches
  have clean := clean_of_models ready grown.1 clean
  have trusted := grown.2 ready.ready.sound (Component.collect_trusted unique rfl rfl collected)
  refine ⟨_, dereference_run document scope node p, ?_⟩
  exact followChain_agrees (trusted clean) clean chase headerless direct
    (Nat.lt_succ_of_le chase.length_le)

/-- A document with some responses, one of which an operation refers to. -/
def responding (responses : List (String × Json)) (name : String) : Json :=
  .obj [("openapi", .str "3.0.0"), ("components", .obj [("responses", .obj responses)]),
    ("paths", .obj [("/a", .obj [("get", .obj [("responses", .obj [
      ("200", .link (Pointer.component "responses" name))])])])])]

/-- The outcome of the collection of components, and the state after it. -/
def collectedOf (document : Json) : Except Failure Unit × Progress :=
  (Component.collect document (resolveNode document) (Scope.root.phase .named)).run.run .start

/-- Whether components were collected of which none is a header, under names that do not read as
references. -/
def isPlainlyCollected (document : Json) : Bool :=
  (collectedOf document).1.isOk &&
    (Dict.keys (collectedOf document).2.registry.models).all (!Pointer.isLocal ·) &&
    (Component.listed document).all (·.group.key != "headers")

theorem dereferencing_of_isPlainlyCollected {responses : List (String × Json)} {name : String}
    (h : isPlainlyCollected (responding responses name) = true) :
    Dereferencing (responding responses name)
        (collectedOf (responding responses name)).2.registry ∧
      (∀ name', (collectedOf (responding responses name)).2.registry.contains name' = true →
        Pointer.isLocal name' = false) ∧
      ∀ refs, Component.Headerless (responding responses name) refs := by
  simp only [isPlainlyCollected, Bool.and_eq_true, List.all_eq_true] at h
  obtain ⟨⟨ok, names⟩, headers⟩ := h
  refine ⟨⟨_, _, Prod.ext (eq_ok_of_isOk ok) rfl, .item⟩, fun name' hn => ?_, fun refs e he _ => ?_⟩
  · simpa using names name' ((Dict.mem_keys_iff_has _ _).2 hn)
  · simpa using headers e he

/-- An alias stands for the response that it leads to. -/
theorem dereference_agrees_with_chase_alias :
    let ok : Json := .obj [("description", .str "fine")]
    let document := responding
      [("Ok", ok), ("Fine", .link (Pointer.component "responses" "Ok"))] "Fine"
    ∃ w, (dereference document .root (.link (Pointer.component "responses" "Fine"))).run.run
        (collectedOf document).2 = (.ok w, (collectedOf document).2) ∧
      w.isObject = true ∧ w.has "$ref" = false ∧ Json.Alike w ok := by
  intro ok document
  have unique : Component.Unrepeated document := by
    unfold Component.Unrepeated
    decide +kernel
  obtain ⟨moment, clean, headerless⟩ := dereferencing_of_isPlainlyCollected
    (show isPlainlyCollected document = true by decide +kernel)
  have chase : Chase document (.link (Pointer.component "responses" "Fine"))
      [Pointer.component "responses" "Fine", Pointer.component "responses" "Ok"] (.found ok) :=
    .next (Json.get?_link _) rfl (.next (Json.get?_link _) rfl (.found rfl rfl))
  obtain ⟨x, run, w, rfl, agrees⟩ := dereference_agrees_with_chase .root unique moment
    clean chase (headerless _) nofun
  exact ⟨w, run, agrees⟩

/-- An alias of a response that is elsewhere answers with its own reference, where the chase comes to
nothing. -/
theorem dereference_answers_for_missing :
    ¬ ∀ {document node : Json} {refs : List String} {ending : Ending} {p : Progress} (scope : Scope),
      Component.Unrepeated document → Dereferencing document p.registry →
      (∀ name, p.registry.contains name = true → Pointer.isLocal name = false) →
      Chase document node refs ending → Component.Headerless document refs →
      ∃ x, (dereference document scope node).run.run p = (x, p) ∧ ending.Agrees scope.location x := by
  intro agrees
  let document := responding [("R", .link "https://e.com/r")] "R"
  have unique : Component.Unrepeated document := by
    unfold Component.Unrepeated
    decide +kernel
  obtain ⟨moment, clean, headerless⟩ := dereferencing_of_isPlainlyCollected
    (show isPlainlyCollected document = true by decide +kernel)
  have chase : Chase document (.link (Pointer.component "responses" "R"))
      [Pointer.component "responses" "R"] (.missing "https://e.com/r") :=
    .next (Json.get?_link _) rfl (.missing (v := .str _) rfl rfl)
  obtain ⟨x, run, rfl⟩ := agrees .root unique moment clean chase (headerless _)
  have answers : ((dereference document .root (.link (Pointer.component "responses" "R"))).run.run
      (collectedOf document).2).1.isOk = true := by decide +kernel
  rw [run] at answers
  cases answers

end ApiGraph
