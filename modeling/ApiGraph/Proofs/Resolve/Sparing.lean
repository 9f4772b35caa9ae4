import ApiGraph.Proofs.Resolve.Run
import ApiGraph.Resolve.Node
import ApiGraph.Resolve.Payload

/-! Only a request body can be refused because its media types carry different things. Nothing else
that a resolution does ends in that way, however it ends. -/

namespace ApiGraph

open Resolving

/-- The failure of a request body whose media types do not carry the same. -/
def Failure.isOfShapes : Failure → Bool
  | .malformed (.distinctShapes _) _ => true
  | _ => false

/-- A computation that does not fail because of the media types of a request body. -/
def Spares (m : Resolving α) : Prop := ∀ p f, (m.run.run p).1 = .error f → f.isOfShapes = false

/-- A resolver that fails for no node because of the media types of a request body. -/
def Resolver.Spares (self : Resolver) : Prop := ∀ site node, ApiGraph.Spares (self site node)

variable {document node : Json} {self : Resolver} {scope : Scope} {site : Site} {name : String}
  {m : Model} {α β : Type}

namespace Spares

theorem pure (a : α) : Spares (Pure.pure a) := fun _ _ h => by cases h

theorem fail {f : Failure} (h : f.isOfShapes = false) : Spares (Resolving.fail f : Resolving α) :=
  fun _ _ he => by cases he; exact h

theorem bind {x : Resolving α} {f : α → Resolving β} (hx : Spares x) (hf : ∀ a, Spares (f a)) :
    Spares (x >>= f) := by
  intro p e h
  rw [run_bind] at h
  cases hr : x.run.run p with
  | mk reply s =>
    rw [hr] at h
    cases reply with
    | error failure =>
      cases h
      exact hx p e (by rw [hr])
    | ok a => exact hf a s e h

theorem fail_bind {e : Failure} {f : α → Resolving β} (h : e.isOfShapes = false) :
    Spares (Resolving.fail e >>= f) :=
  fun _ _ he => by cases he; exact h

theorem ite {c : Prop} [Decidable c] {x y : Resolving α} (hx : Spares x) (hy : Spares y) :
    Spares (if c then x else y) := by
  split
  · exact hx
  · exact hy

theorem fit {x : Shape.Checked α} : Spares (Resolving.fit x) := by
  cases x with
  | fits a => exact pure a
  | fails ms => exact fail rfl

theorem lift {x : Except Failure α} (h : ∀ f, x = .error f → f.isOfShapes = false) :
    Spares (Resolving.lift x) := by
  cases x with
  | ok a => exact pure a
  | error f => exact fail (h f rfl)

theorem registry : Spares Resolving.registry := fun _ _ h => by cases h

theorem setRegistry (r : Registry) : Spares (Resolving.setRegistry r) := fun _ _ h => by cases h

theorem freeName (name : String) : Spares (Resolving.freeName name) := fun _ _ h => by cases h

theorem claim (name : String) : Spares (Resolving.claim name) := fun _ _ h => by cases h

/-- A registration fails only for want of what a reference leads to. -/
theorem assert (raw : Json) (parsed : Link Model) (hint : Option String) (space : KeySpace)
    (location : String) : Spares (Resolving.assert raw parsed hint space location) := by
  refine bind registry fun r => bind (lift fun f hf => ?_) fun x => bind (setRegistry _) fun _ => pure _
  have required {x : Except Failure Resolved} (h : x.map (·, r) = .error f)
      (hx : ∀ e, x = .error e → e.isOfShapes = false) : f.isOfShapes = false := by
    cases x with
    | ok found => cases h
    | error e =>
      cases h
      exact hx _ rfl
  have missing {key : String} {e : Failure} (h : r.require key location = .error e) :
      e.isOfShapes = false := by
    unfold Registry.require at h
    split at h <;> cases h
    rfl
  cases parsed with
  | ref ref =>
    refine required hf fun e he => ?_
    unfold Registry.requireRef at he
    split at he <;> cases he
    rfl
  | model m =>
    simp only [Registry.assert] at hf
    split at hf
    · split at hf
      · exact required hf fun e => missing
      · cases hf
    · cases hf

theorem membersOf (v : Json) : Spares (membersOf v) := by
  unfold ApiGraph.membersOf
  split
  · exact pure _
  · exact fail rfl

end Spares

section

variable (hself : self.Spares)
include hself

theorem spares_followReference (text : String) :
    Spares (followReference document self scope text) := by
  unfold followReference
  split
  · exact .fail rfl
  refine .bind .registry fun r => .bind (.setRegistry _) fun _ => .bind (hself _ _) fun parsed => ?_
  split
  · refine .ite (.bind .registry fun _ => ?_) (.pure _)
    exact .bind (.setRegistry _) fun _ => .pure _
  · exact .bind (.assert _ _ _ _ _) fun _ => .pure _

theorem spares_resolveReference : Spares (resolveReference document self scope node) := by
  unfold resolveReference
  split
  · refine .ite (.pure _) (.bind .registry fun r => ?_)
    split
    · exact .pure _
    · exact spares_followReference hself _
  · exact .fail rfl
  · exact .fail rfl

namespace Schema

variable {parent : String} {required : List String}

theorem spares_member : Spares (resolveMember self scope name required node) := by
  refine .bind (.freeName _) fun _ => .bind (hself _ _) fun out => ?_
  cases out.result with
  | ref _ => exact .pure _
  | model _ => exact .bind (.claim _) fun _ => .pure _

theorem spares_array : Spares (resolveArray self site node m) := by
  unfold resolveArray
  split
  · exact .fail rfl
  refine .bind (.freeName _) fun _ => .bind (hself _ _) fun out => ?_
  cases out.result with
  | ref _ => exact .pure _
  | model _ => exact .ite (.pure _) (.bind (.claim _) fun _ => .pure _)

theorem spares_mapValues : Spares (resolveMapValues self site node m) := by
  unfold resolveMapValues
  split
  · exact .pure _
  · exact .bind (spares_member hself) fun _ => .pure _
  · exact .pure _

theorem spares_fieldType {f : Field} :
    Spares (resolveFieldType document self scope parent node f) := by
  unfold resolveFieldType
  refine .ite (.bind (spares_resolveReference hself) fun _ => .pure _) (.ite (.pure _)
    (.ite ?_ (.pure _)))
  split
  · exact .fail rfl
  · exact .bind (spares_member hself) fun _ => .pure _

theorem spares_field : Spares (resolveField document self scope parent required name node) := by
  refine .ite (.fail_bind rfl) (.bind (.bind .fit fun _ => .pure _) fun _ => ?_)
  exact .bind (spares_fieldType hself) fun _ => .pure _

theorem spares_fields {entries : List (String × Json)} :
    Spares (resolveFields document self scope parent required entries) := by
  induction entries with
  | nil => exact .pure _
  | cons _ _ ih => exact .bind (spares_field hself) fun _ => .bind ih fun _ => .pure _

theorem spares_properties : Spares (resolveProperties document self site required node m) := by
  refine .ite (.pure _) ?_
  split
  · exact spares_fields hself
  · exact .fail rfl

theorem spares_branches {key : String} {i : Nat} {branches : List Json} :
    Spares (resolveBranches self scope key name required i branches) := by
  induction branches generalizing i with
  | nil => exact .pure _
  | cons _ _ ih => exact .bind (spares_member hself) fun _ => .bind ih fun _ => .pure _

theorem spares_combinator {key label : String} :
    Spares (resolveCombinator self site required node m key label) := by
  unfold resolveCombinator
  split
  · exact .pure _
  · exact .bind (spares_branches hself) fun _ => .pure _
  · exact .fail rfl

theorem spares_composite : Spares (resolveComposite document self site node m) := by
  have names : Spares (requiredNames node) := by
    unfold requiredNames
    split
    · exact .ite (.fail rfl) (.pure _)
    · exact .pure _
  have branches {required : List String} {key label : String} :
      Spares (resolveCombinator self site required node m key label) := spares_combinator hself
  exact .bind names fun _ => .bind (spares_properties hself) fun _ => .bind branches fun _ =>
    .bind branches fun _ => .bind branches fun _ => .pure _

theorem spares_resolve : Spares (resolve document self site node) := by
  refine .bind .registry fun r => ?_
  split
  · exact .pure _
  refine .bind (.bind .fit fun _ => .pure _) fun m => .bind (.ite (spares_array hself) ?_)
    fun _ => .ite (.pure _) (.pure _)
  refine .bind (spares_mapValues hself) fun _ => .ite ?_ (.pure _)
  exact .bind (spares_composite hself) fun _ => .pure _

end Schema

theorem Parameter.spares_resolve : Spares (resolve self scope name node) := by
  have place : Spares (placeOf scope node) := by
    refine .ite (.fail_bind rfl) ?_
    split
    · exact .pure _
    · exact .fail rfl
  have named (place : ParameterPlace) : Spares (nameFor name place node) := by
    refine .ite (.pure _) ?_
    split
    · exact .pure _
    · exact .fail rfl
  have schema : Spares (schemaOf node) := by
    refine .ite (.fail_bind rfl) ?_
    split
    · exact .pure _
    · exact .bind (.ite (.bind (.membersOf _) fun _ => .pure _) (.pure _)) fun _ => .pure _
  have values (schema : Option Json) (m : Model) : Spares (resolveValues self scope schema m) := by
    cases schema with
    | none => exact .pure _
    | some v =>
      refine .bind (hself _ _) fun out => ?_
      cases out.result with
      | ref _ => exact .pure _
      | model _ => exact .ite (.bind (.assert _ _ _ _ _) fun _ => .pure _) (.pure _)
  exact .bind place fun place => .bind (named place) fun _ => .bind .fit fun _ => .bind schema
    fun _ => .bind (values _ _) fun _ => .ite (.pure _) (.pure _)

namespace Header

theorem spares_resolve : Spares (resolve document self scope name node) := by
  unfold resolve
  split
  · refine .ite (spares_resolveReference hself) ?_
    exact .bind (Parameter.spares_resolve hself) fun _ => .bind (.assert _ _ _ _ _) fun _ => .pure _
  · exact .fail rfl

theorem spares_each {entries : List (String × Json)} :
    Spares (resolveEach document self scope entries) := by
  induction entries with
  | nil => exact .pure _
  | cons _ _ ih => exact .bind (spares_resolve hself) fun _ => .bind ih fun _ => .pure _

theorem spares_holder {kind : Kind} : Spares (resolveHolder document self scope kind name node) := by
  refine .bind .fit fun _ => .bind (.ite (.pure _) ?_) fun _ => .pure _
  split
  · exact spares_each hself
  · exact .fail rfl

end Header

/-- A node of any form is resolved without such a failure, if its parts are. -/
theorem spares_resolveForm : Spares (resolveForm document self site node) := by
  have scheme : Spares (resolveSecurityScheme site.scope site.name node) := by
    unfold resolveSecurityScheme
    split
    · exact .fail rfl
    next type _ =>
    have named : Spares (securitySchemeName site.name type) := by
      refine .ite (.pure _) ?_
      split
      · exact .pure _
      · exact .fail rfl
      · exact .fail rfl
    exact .bind named fun _ => .bind .fit fun _ => .pure _
  refine .ite (.fail_bind rfl) ?_
  split
  · exact .bind (spares_resolveReference hself) fun _ => .pure _
  · exact .bind scheme fun _ => .pure _
  · exact .bind (Parameter.spares_resolve hself) fun _ => .pure _
  · exact .bind (Header.spares_holder hself) fun _ => .pure _
  · exact .bind (Header.spares_holder hself) fun _ => .pure _
  · exact Schema.spares_resolve hself

end

theorem spares_resolveWithin (document : Json) (depth : Nat) :
    (resolveWithin document depth).Spares := by
  induction depth with
  | zero => exact fun _ _ => .fail rfl
  | succ depth ih => exact fun _ _ => spares_resolveForm ih

theorem spares_resolveNode (document : Json) : (resolveNode document).Spares :=
  fun site node => spares_resolveWithin document _ site node

theorem Payload.spares_resolve (hself : self.Spares) {schema : Json} :
    Spares (resolve self scope name schema) := by
  have registered {scope : Scope} {v : Json} {array : Option Bool} :
      Spares (resolveRegistered self scope name v array) :=
    .bind (hself _ _) fun _ => .bind (.assert _ _ _ _ _) fun _ => .pure _
  refine .ite (.pure _) (.ite (.pure _) (.ite ?_ registered))
  split
  · exact .fail rfl
  · exact .ite (.pure _) registered

/-- The media types of a request body are resolved without such a failure. -/
theorem RequestBody.spares_resolveMedia (hself : self.Spares) {o : Occasion}
    {shared : Option Payload} {content : List (String × Json)} :
    Spares (resolveMedia self scope o node shared content) := by
  induction content generalizing shared with
  | nil => exact .pure _
  | cons media rest ih =>
    unfold resolveMedia
    refine .ite (.fail_bind rfl) ?_
    cases shared with
    | some payload => exact .bind (.pure _) fun _ => .bind .fit fun _ => .bind ih fun _ => .pure _
    | none =>
      exact .bind (Payload.spares_resolve hself) fun _ => .bind .fit fun _ => .bind ih fun _ => .pure _

end ApiGraph
