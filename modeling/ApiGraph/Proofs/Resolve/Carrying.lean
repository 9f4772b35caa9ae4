import ApiGraph.Proofs.Termination

/-! Runs that carry over from one document to another. A successful run forgets no declared key; if
the keys that are there in the end lead to the same targets in both documents, then the run on the
other document is the same. -/

namespace ApiGraph

open Resolving

/-- The declared keys of a state that lead to targets lead to the same ones in both documents. -/
def Progress.Agrees (document document' : Json) (p : Progress) : Prop :=
  ∀ text ∈ Dict.keys p.registry.named, ∀ target, Pointer.resolve document text = some target →
    Pointer.resolve document' text = some target

/-- A successful run of a computation from a state forgets no declared key, and is a run of the
other computation if the documents agree in the end. -/
def CarriesFrom (document document' : Json) (p : Progress) (m m' : Resolving α) : Prop :=
  ∀ a q, Runs m p a q → p.Keeps q ∧ (q.Agrees document document' → Runs m' p a q)

/-- The same from every state. -/
def Carries (document document' : Json) (m m' : Resolving α) : Prop :=
  ∀ p, CarriesFrom document document' p m m'

variable {document document' node : Json} {p q : Progress} {α β : Type}

theorem Progress.Agrees.mono (h : q.Agrees document document') (hk : p.Keeps q) :
    p.Agrees document document' := fun text ht => h text (hk ht)

namespace CarriesFrom

theorem bind {m m' : Resolving α} {f f' : α → Resolving β}
    (h : CarriesFrom document document' p m m')
    (hf : ∀ a q, Runs m p a q → CarriesFrom document document' q (f a) (f' a)) :
    CarriesFrom document document' p (m >>= f) (m' >>= f') := by
  intro b q hb
  obtain ⟨a, s, ha, hb⟩ := runs_bind.1 hb
  obtain ⟨kept, carried⟩ := h a s ha
  obtain ⟨kept', carried'⟩ := hf a s ha b q hb
  exact ⟨kept.trans kept', fun agrees =>
    runs_bind.2 ⟨a, s, carried (agrees.mono kept'), carried' agrees⟩⟩

/-- A computation that has nothing to do with the document. -/
theorem same {m : Resolving α} (keeps : ∀ a q, Runs m p a q → p.Keeps q) :
    CarriesFrom document document' p m m := fun a q h => ⟨keeps a q h, fun _ => h⟩

theorem mapM {f f' : α → Resolving β} {as : List α} (idle : ∀ a b p q, Runs (f a) p b q → q = p)
    (h : ∀ a ∈ as, CarriesFrom document document' p (f a) (f' a)) :
    CarriesFrom document document' p (as.mapM f) (as.mapM f') := by
  induction as with
  | nil => exact same fun _ _ h => (runs_pure.1 h).2 ▸ .refl p
  | cons a as ih =>
    rw [List.mapM_cons, List.mapM_cons]
    refine bind (h a List.mem_cons_self) fun b q hb => ?_
    obtain rfl := idle _ _ _ _ hb
    refine bind (ih fun a ha => h a (List.mem_cons_of_mem _ ha)) fun bs q _ => ?_
    exact same fun _ _ h => (runs_pure.1 h).2 ▸ .refl q

theorem filterM {f f' : α → Resolving Bool} {as : List α}
    (idle : ∀ a b p q, Runs (f a) p b q → q = p)
    (h : ∀ a ∈ as, CarriesFrom document document' p (f a) (f' a)) :
    CarriesFrom document document' p (as.filterM f) (as.filterM f') := by
  have aux (kept : List α) : CarriesFrom document document' p (List.filterAuxM f as kept)
      (List.filterAuxM f' as kept) := by
    induction as generalizing kept with
    | nil => exact same fun _ _ h => (runs_pure.1 h).2 ▸ .refl p
    | cons a as ih =>
      rw [List.filterAuxM, List.filterAuxM]
      refine bind (h a List.mem_cons_self) fun b q hb => ?_
      obtain rfl := idle _ _ _ _ hb
      exact ih (fun a ha => h a (List.mem_cons_of_mem _ ha)) _
  exact bind (aux []) fun _ q _ => same fun _ _ h => (runs_pure.1 h).2 ▸ .refl q

end CarriesFrom

namespace Carries

theorem pure (a : α) : Carries document document' (Pure.pure a) (Pure.pure a) :=
  fun p => .same fun _ _ h => (runs_pure.1 h).2 ▸ .refl p

theorem fail {f : Failure} {m : Resolving α} : Carries document document' (Resolving.fail f) m :=
  fun _ _ _ h => (runs_fail.1 h).elim

theorem malformed {flaw : Schema.Flaw} {location : String} {m : Resolving α} :
    Carries document document' (Resolving.malformed flaw location) m := fail

theorem bind {m m' : Resolving α} {f f' : α → Resolving β} (h : Carries document document' m m')
    (hf : ∀ a, Carries document document' (f a) (f' a)) :
    Carries document document' (m >>= f) (m' >>= f') :=
  fun p => (h p).bind fun a q _ => hf a q

theorem malformed_bind {flaw : Schema.Flaw} {location : String} {f : α → Resolving β}
    {m : Resolving β} : Carries document document' (Resolving.malformed flaw location >>= f) m := by
  intro p b q h
  obtain ⟨_, _, hf, -⟩ := runs_bind.1 h
  exact (runs_malformed.1 hf).elim

theorem fail_bind {e : Failure} {f : α → Resolving β} {m : Resolving β} :
    Carries document document' (Resolving.fail e >>= f) m := by
  intro p b q h
  obtain ⟨_, _, hf, -⟩ := runs_bind.1 h
  exact (runs_fail.1 hf).elim

theorem ite {c : Prop} [Decidable c] {m₁ m₂ n₁ n₂ : Resolving α}
    (h : c → Carries document document' m₁ n₁) (h' : ¬ c → Carries document document' m₂ n₂) :
    Carries document document' (if c then m₁ else m₂) (if c then n₁ else n₂) := by
  by_cases hc : c
  · simpa only [if_pos hc] using h hc
  · simpa only [if_neg hc] using h' hc

/-- A computation that changes nothing. -/
theorem idle {m : Resolving α} (h : ∀ p a q, Runs m p a q → q = p) :
    Carries document document' m m := fun p => .same fun a q ha => h p a q ha ▸ .refl p

/-- A computation that asks nothing. -/
theorem of_asking {m : Resolving α} (node : Json) (h : Asking document node fun _ => m) :
    Carries document document' m m := by
  refine fun p => .same fun a q ha => ?_
  have keeps := (h p).keeps (fun _ _ => Resolving.fail (.misuse .endless)) fun c => .refl c.state
  rwa [show m.run.run p = (.ok a, q) from ha] at keeps

theorem registry : Carries document document' Resolving.registry Resolving.registry :=
  .idle fun _ _ _ h => (runs_registry.1 h).2.symm

theorem freeName (name : String) :
    Carries document document' (Resolving.freeName name) (Resolving.freeName name) :=
  .idle fun _ _ _ h => (runs_freeName.1 h).2.symm

theorem claim (name : String) :
    Carries document document' (Resolving.claim name) (Resolving.claim name) :=
  fun p => .same fun _ _ h => runs_claim.1 h ▸ .refl p

theorem notify (n : Notice) :
    Carries document document' (Resolving.notify n) (Resolving.notify n) :=
  fun p => .same fun _ _ h => runs_notify.1 h ▸ .refl p

theorem fit {x : Shape.Checked α} :
    Carries document document' (Resolving.fit x) (Resolving.fit x) :=
  .idle fun _ _ _ h => (runs_fit.1 h).2.symm

theorem assert (raw : Json) (parsed : Link Model) (hint : Option String) (space : KeySpace)
    (location : String) :
    Carries document document' (Resolving.assert raw parsed hint space location)
      (Resolving.assert raw parsed hint space location) := by
  refine fun p => .same fun _ _ h => ?_
  obtain ⟨r, registered, rfl⟩ := runs_assert.1 h
  exact Registry.keys_assert registered

end Carries

/-- What resolvers do with a node carries over. -/
def Resolver.Carries (document document' : Json) (self self' : Resolver) : Prop :=
  ∀ site node, ApiGraph.Carries document document' (self site node) (self' site node)

/-- Follows a reference to its target. -/
def followTarget (self : Resolver) (scope : Scope) (ref : String) (target : Json) :
    Resolving Ref := do
  let (reserved, r) := (← registry).reserve ref (pointerName ref)
  setRegistry r
  let site := Site.ofOwner (scope.relocated (Pointer.segments ref)) reserved.name
  let parsed ← self site target
  match parsed.result with
  | .ref found =>
    if !found.isRemote then setRegistry ((← registry).redirect ref found.name)
    return found
  | .model _ =>
    let resolved ← assert target parsed.result (some ref) .named scope.location
    return resolved.ref

theorem followReference_eq {self : Resolver} {scope : Scope} {ref : String} {target : Json}
    (leads : Pointer.resolve document ref = some target) :
    followReference document self scope ref = followTarget self scope ref target := by
  unfold followReference
  rw [leads]
  rfl

variable {self self' : Resolver} {scope : Scope} {site : Site} {m : Model}

/-- What became of the target of a reference is entered under its text. -/
theorem carries_answer (text : String) (target : Json) (location : String) (out : Outcome) :
    let answer : Resolving Ref := do
      match out.result with
      | .ref found =>
        if !found.isRemote then setRegistry ((← registry).redirect text found.name)
        return found
      | .model _ =>
        let resolved ← assert target out.result (some text) .named location
        return resolved.ref
    Carries document document' answer answer := by
  cases out.result with
  | ref found =>
    refine .ite (fun _ p => ?_) fun _ => .pure _
    refine .bind (Carries.registry p) fun r q hr => ?_
    obtain ⟨rfl, rfl⟩ := runs_registry.1 hr
    refine .bind (.same fun _ _ h => ?_) fun _ s _ => Carries.pure found s
    rw [runs_setRegistry.1 h]
    exact fun k hk => Dict.mem_keys_put.2 (Or.inl hk)
  | model m => exact .bind (.assert _ _ _ _ _) fun _ => .pure _

section

variable (hself : self.Carries document document' self')
include hself

theorem carries_followTarget (text : String) (target : Json) :
    Carries document document' (followTarget self scope text target)
      (followTarget self' scope text target) := by
  refine fun p => CarriesFrom.bind (Carries.registry p) fun r q hr => ?_
  obtain ⟨rfl, rfl⟩ := runs_registry.1 hr
  refine CarriesFrom.bind (.same fun _ _ h => ?_) fun _ s _ => ?_
  · rw [runs_setRegistry.1 h]
    exact (Registry.keys_reserve _ _).1
  · exact ((hself _ _).bind fun out => carries_answer text target _ out) s

/-- A reference that is followed is a declared key in the end. -/
theorem carries_followReference (text : String) :
    Carries document document' (followReference document self scope text)
      (followReference document' self' scope text) := by
  intro p ref q h
  obtain ⟨target, reserved, r, out, s, leads, hr, hs, entered⟩ := followReference_runs h
  rw [followReference_eq leads] at h
  obtain ⟨kept, carried⟩ := carries_followTarget hself text target p ref q h
  refine ⟨kept, fun agrees => ?_⟩
  have reserves := (Registry.keys_reserve (r := p.registry) text (pointerName text)).2
  rw [hr] at reserves
  have resolved : text ∈ Dict.keys s.registry.named := (hself _ _ _ _ _ hs).1 reserves
  have known : text ∈ Dict.keys q.registry.named := by
    obtain ⟨-, rfl⟩ | ⟨m, found, t, -, registered, -, rfl⟩ := entered
    · split
      · exact resolved
      · exact Dict.mem_keys_put.2 (Or.inl resolved)
    · exact Registry.keys_assert registered resolved
  rw [followReference_eq (agrees text known target leads)]
  exact carried agrees

theorem carries_resolveReference :
    Carries document document' (resolveReference document self scope node)
      (resolveReference document' self' scope node) := by
  unfold resolveReference
  split
  · refine .ite (fun _ => .pure _) fun _ => .bind .registry fun r => ?_
    split
    · exact .pure _
    · exact carries_followReference hself _
  · exact .malformed
  · exact .fail

namespace Schema

variable {name parent : String} {required : List String}

theorem carries_member : Carries document document' (resolveMember self scope name required node)
    (resolveMember self' scope name required node) := by
  refine .bind (.freeName _) fun free => .bind (hself _ _) fun out => ?_
  cases out.result with
  | ref _ => exact .pure _
  | model m => exact .bind (.claim _) fun _ => .pure _

theorem carries_array : Carries document document' (resolveArray self site node m)
    (resolveArray self' site node m) := by
  unfold resolveArray
  split
  · exact .malformed
  refine .bind (.freeName _) fun free => .bind (hself _ _) fun out => ?_
  cases out.result with
  | ref _ => exact .pure _
  | model item => exact .ite (fun _ => .pure _) fun _ => .bind (.claim _) fun _ => .pure _

theorem carries_mapValues : Carries document document' (resolveMapValues self site node m)
    (resolveMapValues self' site node m) := by
  unfold resolveMapValues
  split
  · exact .pure _
  · exact .bind (carries_member hself) fun _ => .pure _
  · exact .pure _

theorem carries_fieldType {f : Field} :
    Carries document document' (resolveFieldType document self scope parent node f)
      (resolveFieldType document' self' scope parent node f) := by
  unfold resolveFieldType
  refine .ite (fun _ => .bind (carries_resolveReference hself) fun _ => .pure _) fun _ => ?_
  refine .ite (fun _ => .pure _) fun _ => .ite (fun _ => ?_) fun _ => .pure _
  split
  · exact .malformed
  · exact .bind (carries_member hself) fun _ => .pure _

theorem carries_field :
    Carries document document' (resolveField document self scope parent required name node)
      (resolveField document' self' scope parent required name node) := by
  unfold resolveField
  refine .ite (fun _ => .malformed_bind) fun _ => ?_
  refine .bind (.bind .fit fun _ => .pure _) fun start => ?_
  exact .bind (carries_fieldType hself) fun _ => .pure _

theorem carries_fields (entries : List (String × Json)) :
    Carries document document' (resolveFields document self scope parent required entries)
      (resolveFields document' self' scope parent required entries) := by
  induction entries with
  | nil => exact .pure _
  | cons entry rest ih =>
    exact .bind (carries_field hself) fun _ => .bind ih fun _ => .pure _

theorem carries_properties :
    Carries document document' (resolveProperties document self site required node m)
      (resolveProperties document' self' site required node m) := by
  unfold resolveProperties
  refine .ite (fun _ => .pure _) fun _ => ?_
  split
  · exact carries_fields hself _
  · exact .malformed

theorem carries_branches (key : String) (i : Nat) (branches : List Json) :
    Carries document document' (resolveBranches self scope key name required i branches)
      (resolveBranches self' scope key name required i branches) := by
  induction branches generalizing i with
  | nil => exact .pure _
  | cons branch rest ih =>
    exact .bind (carries_member hself) fun _ => .bind (ih _) fun _ => .pure _

theorem carries_combinator (key label : String) :
    Carries document document' (resolveCombinator self site required node m key label)
      (resolveCombinator self' site required node m key label) := by
  unfold resolveCombinator
  split
  · exact .pure _
  · exact .bind (carries_branches hself _ _ _) fun _ => .pure _
  · exact .malformed

theorem carries_composite : Carries document document' (resolveComposite document self site node m)
    (resolveComposite document' self' site node m) := by
  refine .bind (.idle fun _ _ _ => requiredNames_runs) fun _ => .bind (carries_properties hself) ?_
  exact fun _ => .bind (carries_combinator hself _ _) fun _ =>
    .bind (carries_combinator hself _ _) fun _ =>
      .bind (carries_combinator hself _ _) fun _ => .pure _

theorem carries_parts : Carries document document' (resolveParts document self site node m)
    (resolveParts document' self' site node m) := by
  refine .ite (fun _ => carries_array hself) fun _ => .bind (carries_mapValues hself) fun _ => ?_
  exact .ite (fun _ => .bind (carries_composite hself) fun _ => .pure _) fun _ => .pure _

theorem carries_resolve : Carries document document' (resolve document self site node)
    (resolve document' self' site node) := by
  refine .bind .registry fun r => ?_
  split
  · exact .pure _
  · refine .bind (.bind .fit fun _ => .pure _) fun _ => .bind (carries_parts hself) fun _ => ?_
    exact .ite (fun _ => .pure _) fun _ => .pure _

end Schema

namespace Parameter

theorem carries_values (schema : Option Json) :
    Carries document document' (resolveValues self scope schema m)
      (resolveValues self' scope schema m) := by
  unfold resolveValues
  split
  · exact .pure _
  refine .bind (hself _ _) fun out => ?_
  cases out.result with
  | ref _ => exact .pure _
  | model parsed =>
    exact .ite (fun _ => .bind (.assert _ _ _ _ _) fun _ => .pure _) fun _ => .pure _

theorem carries_resolve (given : String) :
    Carries document document' (resolve self scope given node) (resolve self' scope given node) := by
  refine .bind (.idle fun _ _ _ => placeOf_runs) fun place => ?_
  refine .bind (.idle fun _ _ _ h => (nameFor_runs h).1) fun name => .bind .fit fun description => ?_
  refine .bind (.idle fun _ _ _ h => (schemaOf_runs h).1) fun schema => ?_
  refine .bind (carries_values hself _) fun m => ?_
  exact .ite (fun _ => .pure _) fun _ => .pure _

end Parameter

namespace Header

theorem carries_resolve (name : String) :
    Carries document document' (resolve document self scope name node)
      (resolve document' self' scope name node) := by
  unfold resolve
  split
  · refine .ite (fun _ => carries_resolveReference hself) fun _ => ?_
    exact .bind (Parameter.carries_resolve hself _) fun m => .bind (.assert _ _ _ _ _) fun _ => .pure _
  · exact .malformed

theorem carries_each (entries : List (String × Json)) :
    Carries document document' (resolveEach document self scope entries)
      (resolveEach document' self' scope entries) := by
  induction entries with
  | nil => exact .pure _
  | cons entry rest ih => exact .bind (carries_resolve hself _) fun _ => .bind ih fun _ => .pure _

theorem carries_all (headers : Json) :
    Carries document document' (resolveAll document self scope headers)
      (resolveAll document' self' scope headers) := by
  refine .ite (fun _ => .pure _) fun _ => ?_
  split
  · exact carries_each hself _
  · exact .malformed

theorem carries_holder (kind : Kind) (name : String) :
    Carries document document' (resolveHolder document self scope kind name node)
      (resolveHolder document' self' scope kind name node) :=
  .bind .fit fun _ => .bind (carries_all hself _) fun _ => .pure _

end Header

theorem carries_resolveForm :
    (resolveForm document self).Carries document document' (resolveForm document' self') := by
  intro site node
  refine .ite (fun _ => .malformed_bind) fun _ => ?_
  split
  · exact .bind (carries_resolveReference hself) fun _ => .pure _
  · exact .bind (.idle fun _ _ _ h => (resolveSecurityScheme_runs h).1) fun _ => .pure _
  · exact .bind (Parameter.carries_resolve hself _) fun _ => .pure _
  · exact .bind (Header.carries_holder hself _ _) fun _ => .pure _
  · exact .bind (Header.carries_holder hself _ _) fun _ => .pure _
  · exact Schema.carries_resolve hself

namespace Payload

theorem carries_registered (name : String) (array : Option Bool) :
    Carries document document' (resolveRegistered self scope name node array)
      (resolveRegistered self' scope name node array) :=
  .bind (hself _ _) fun _ => .bind (.assert _ _ _ _ _) fun _ => .pure _

theorem carries_resolve (name : String) :
    Carries document document' (resolve self scope name node) (resolve self' scope name node) := by
  refine .ite (fun _ => .pure _) fun _ => .ite (fun _ => .pure _) fun _ => .ite (fun _ => ?_) ?_
  · split
    · exact .malformed
    · exact .ite (fun _ => .pure _) fun _ => carries_registered hself _ _
  · exact fun _ => carries_registered hself _ _

end Payload

theorem Response.carries_media (o : Occasion) (status : String) (headers : Dict String Ref)
    (content : List (String × Json)) :
    Carries document document' (resolveMedia self scope o status headers node content)
      (resolveMedia self' scope o status headers node content) := by
  induction content with
  | nil => exact .pure _
  | cons entry rest ih =>
    unfold resolveMedia
    refine .ite (fun _ => .malformed_bind) fun _ => .bind (Payload.carries_resolve hself _) ?_
    exact fun payload => .bind .fit fun description => .bind ih fun _ => .pure _

theorem RequestBody.carries_media (o : Occasion) (shared : Option Payload)
    (content : List (String × Json)) :
    Carries document document' (resolveMedia self scope o node shared content)
      (resolveMedia self' scope o node shared content) := by
  induction content generalizing shared with
  | nil => exact .pure _
  | cons entry rest ih =>
    unfold resolveMedia
    refine .ite (fun _ => .malformed_bind) fun _ => ?_
    cases shared with
    | some payload => exact .bind (.pure _) fun _ => .bind .fit fun _ => .bind (ih _) fun _ => .pure _
    | none =>
      refine .bind (Payload.carries_resolve hself _) fun _ => .bind .fit fun _ => ?_
      exact .bind (ih _) fun _ => .pure _

namespace Parameter

theorem carries_into (groups : Groups) (param : Json) :
    Carries document document' (resolveInto self scope groups param)
      (resolveInto self' scope groups param) := by
  refine .ite (fun _ => .malformed_bind) fun _ => .bind (hself _ _) fun out => ?_
  refine .bind (.assert _ _ _ _ _) fun resolved => ?_
  cases resolved.model with
  | none => exact .bind (.notify _) fun _ => .pure _
  | some m => exact .bind (.idle fun _ _ _ => placeOf_runs) fun _ => .pure _

theorem carries_from (i : Nat) (params : List Json) (groups : Groups) :
    Carries document document' (resolveFrom self scope i params groups)
      (resolveFrom self' scope i params groups) := by
  induction params generalizing i groups with
  | nil => exact .pure _
  | cons param rest ih => exact .bind (carries_into hself _ _) fun _ => ih _ _

omit hself in
theorem carries_gather (params : List Ref) (name : String) :
    Carries document document' (gather scope params name) (gather scope params name) := by
  refine .ite (fun _ => .pure _) fun _ => .bind (.idle fun _ _ _ h => (fieldsOf_runs h).1) fun _ => ?_
  exact .bind (.assert _ _ _ _ _) fun _ => .pure _

end Parameter

namespace Component

theorem carries_resolve (e : Entry) :
    Carries document document' (resolve self scope e) (resolve self' scope e) := by
  refine .bind (.idle fun _ _ _ h => (canonicalName_runs h).1) fun name => ?_
  have plain : Carries document document' (do
      return (← self { Site.ofOwner (scope.relocated ["components", e.group.key, e.name]) name with
        hint := e.group.hint } e.node).result) (do
      return (← self' { Site.ofOwner (scope.relocated ["components", e.group.key, e.name]) name with
        hint := e.group.hint } e.node).result) := .bind (hself _ _) fun _ => .pure _
  split
  · exact .ite (fun _ => .bind (Parameter.carries_resolve hself _) fun _ => .pure _) fun _ => plain
  · exact plain

theorem carries_each (es : List Entry) :
    Carries document document' (resolveEach self scope es) (resolveEach self' scope es) := by
  induction es with
  | nil => exact .pure _
  | cons e es ih => exact .bind (carries_resolve hself _) fun _ => .bind ih fun _ => .pure _

/-- The components of documents that declare the same are collected in the same way. -/
theorem carries_collect (same : declared document' = declared document) :
    Carries document document' (collect document self scope) (collect document' self' scope) := by
  unfold collect
  rw [same]
  refine .bind (.idle fun _ _ _ h => (declared_runs h).1) fun es => .bind ?_ fun _ => ?_
  · refine fun p => .same fun _ _ h => ?_
    rw [reserve_forM_runs h]
    exact (keys_reserved es p.registry).1
  · refine .bind (carries_each hself es) fun resolved => ?_
    exact .bind (.of_asking .null asking_register) fun _ => .of_asking .null asking_aliases

end Component

end

theorem carries_unrolled (depth : Nat) :
    (unrolled document (fun _ _ => fail (.misuse .endless)) depth).Carries document document'
      (unrolled document' (fun _ _ => fail (.misuse .endless)) depth) := by
  induction depth with
  | zero => exact fun _ _ => .fail
  | succ depth ih => exact carries_resolveForm ih

/-- The resolution of a node is that up to any depth from its bound on. -/
theorem resolveNode_eq_unrolled (document : Json) (bottom : Resolver) (site : Site) (node : Json)
    (extra : Nat) : resolveNode document site node =
      unrolled document bottom (depthBound document node + extra) site node := by
  refine funext fun p => ?_
  obtain ⟨-, -, answers⟩ := Question.resolved document ⟨site, node, p⟩
  exact (answers bottom extra).symm

theorem carries_resolveNode :
    (resolveNode document).Carries document document' (resolveNode document') := by
  intro site node
  -- A depth that is enough for both documents.
  rw [resolveNode_eq_unrolled document _ site node (depthBound document' node),
    resolveNode_eq_unrolled document' _ site node (depthBound document node),
    Nat.add_comm (depthBound document' node)]
  exact carries_unrolled _ site node

theorem unrolled_add (document : Json) (bottom : Resolver) (depth extra : Nat) :
    unrolled document (unrolled document bottom extra) depth =
      unrolled document bottom (depth + extra) := by
  induction depth with
  | zero => rw [Nat.zero_add, unrolled]
  | succ depth ih => rw [Nat.add_right_comm, unrolled, unrolled, ih]

/-- What lies deeper than a bound does not matter where a node was resolved within the bound. -/
theorem carries_resolveWithin (depth : Nat) :
    (resolveWithin document depth).Carries document document (resolveNode document) := by
  intro site node
  -- A depth that is enough for the node below the bound.
  rw [resolveNode_eq_unrolled document (fun _ _ => fail (.misuse .endless)) site node depth,
    Nat.add_comm, ← unrolled_add, resolveWithin_eq_unrolled]
  generalize unrolled document (fun _ _ => fail (.misuse .endless)) (depthBound document node) = self
  revert site
  suffices h : Resolver.Carries document document
      (unrolled document (fun _ _ => fail (.misuse .endless)) depth) (unrolled document self depth) from
    fun site => h site node
  induction depth with
  | zero => exact fun _ _ => .fail
  | succ depth ih => exact carries_resolveForm ih

theorem resolveNode_of_within {depth : Nat} {site : Site} {out : Outcome}
    (h : Runs (resolveWithin document depth site node) p out q) :
    Runs (resolveNode document site node) p out q :=
  (carries_resolveWithin depth site node p out q h).2 fun _ _ _ ht => ht

end ApiGraph
