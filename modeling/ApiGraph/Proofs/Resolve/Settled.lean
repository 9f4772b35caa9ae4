import ApiGraph.Proofs.Resolve.Collection

/-! What a node was resolved into, as the registry tells it: a model that was made from the node, the
handle of its reference, or the handle of an equal node. The name of a reference is final unless the
reference is found to lead to another one; what was given its first name before keeps that. -/

namespace ApiGraph

open Resolving Registry

/-- The handle of a reference: its own text or that of a further reference when these lead out of the
document; the name that stands for it, or a name that was made for it. -/
inductive Handled (document : Json) (r : Registry) : String → Ref → Prop
  | outside {text : String} (outside : Pointer.isLocal text = false) :
    Handled document r text (.remote text)
  | through {text next : String} {target : Json} {ref : Ref}
    (leads : Pointer.resolve document text = some target)
    (spells : target.get? "$ref" = some (.str next)) (remote : ref.isRemote = true)
    (rest : Handled document r next ref) : Handled document r text ref
  | known {text : String} {ref : Ref} (inside : Pointer.isLocal text = true)
    (here : ref.isRemote = false)
    (known : r.named.lookup text = some ref.name ∨ ref.name = text ∧ r.contains text = true) :
    Handled document r text ref
  | made {text : String} {target : Json} {ref : Ref} {taken : List String}
    (undeclared : Component.Undeclared document text)
    (leads : Pointer.resolve document text = some target) (here : ref.isRemote = false)
    (variant : ref.name = freeVariant taken (pointerName text)) : Handled document r text ref

/-- What a node was resolved into. -/
inductive TurnsInto (document : Json) (r : Registry) (v : Json) : Link Model → Prop
  | made {m : Model} (source : m.source = v) (plain : v.has "$ref" = false) :
    TurnsInto document r v (.model m)
  | refers {text : String} {ref : Ref} (spells : v.get? "$ref" = some (.str text))
    (handled : Handled document r text ref) : TurnsInto document r v (.ref ref)
  | equal {name : String} (plain : v.has "$ref" = false)
    (found : r.structural.lookup v.canonical = some name) (registered : r.contains name = true) :
    TurnsInto document r v (.ref (.named name))

variable {document v target : Json} {r s t : Registry} {text name location : String} {ref : Ref}
  {link : Link Model} {m : Model} {found : Resolved}

theorem Handled.of_grows (h : Handled document r text ref) (g : Grows (fun _ => False) r s) :
    Handled document s text ref := by
  induction h with
  | outside outside => exact .outside outside
  | through leads spells remote _ ih => exact .through leads spells remote ih
  | known inside here known =>
    exact .known inside here (known.imp (g.name id) fun own => ⟨own.1, g.contains own.2⟩)
  | made undeclared leads here variant => exact .made undeclared leads here variant

/-- When another name takes the place of the one that was made for a reference, the handle with the old
name remains. -/
theorem Handled.redirect {key : String} {taken : List String} (h : Handled document s text ref)
    (undeclared : Component.Undeclared document key) (leads : Pointer.resolve document key = some target)
    (given : s.named.lookup key = some (freeVariant taken (pointerName key))) :
    Handled document (s.redirect key name) text ref := by
  induction h with
  | outside outside => exact .outside outside
  | through leads spells remote _ ih => exact .through leads spells remote ih
  | made undeclared leads here variant => exact .made undeclared leads here variant
  | @known text ref inside here known =>
    obtain named | own := known
    · by_cases same : text = key
      · subst same
        exact .made undeclared leads here (Option.some.inj (named.symm.trans given))
      · refine .known inside here (.inl ?_)
        rwa [Registry.redirect, Dict.lookup_put_of_ne _ _ (by simpa using same)]
    · exact .known inside here (.inr own)

theorem TurnsInto.of_grows (h : TurnsInto document r v link) (g : Grows (fun _ => False) r s) :
    TurnsInto document s v link := by
  cases h with
  | made source plain => exact .made source plain
  | refers spells handled => exact .refers spells (handled.of_grows g)
  | equal plain found registered => exact .equal plain (g.content found) (g.contains registered)

theorem TurnsInto.redirect {key : String} {taken : List String} (h : TurnsInto document s v link)
    (undeclared : Component.Undeclared document key) (leads : Pointer.resolve document key = some target)
    (given : s.named.lookup key = some (freeVariant taken (pointerName key))) :
    TurnsInto document (s.redirect key name) v link := by
  cases h with
  | made source plain => exact .made source plain
  | refers spells handled => exact .refers spells (handled.redirect undeclared leads given)
  | equal plain found registered => exact .equal plain found registered

/-- A reference that was followed to a handle has this handle. -/
theorem Handled.followed (leads : Pointer.resolve document text = some target)
    (settled : TurnsInto document s target (.ref ref)) :
    Handled document (if ref.isRemote then s else s.redirect text ref.name) text ref := by
  split
  · next remote =>
    cases settled with
    | refers spells handled => exact .through leads spells remote handled
    | equal => cases remote
  · next here =>
    exact .known (Pointer.isLocal_of_resolve leads) (by simpa using here)
      (.inl (Dict.lookup_put_self _ _ _))

/-- A reference that was followed to a model has the name that was reserved for it. -/
theorem Handled.registered (leads : Pointer.resolve document text = some target)
    (reserved : s.named.lookup text = some name) (kept : t.named.lookup text = some name)
    (settled : TurnsInto document s target (.model m))
    (registers : s.assert target (.model m) (some text) .named location = .ok (found, t)) :
    Handled document t text found.ref := by
  obtain ⟨-, plain⟩ := settled
  have inside := Pointer.isLocal_of_resolve leads
  have nonempty : text ≠ "" := by
    rintro rfl
    cases inside
  have entered := assert_model plain registers
  rw [show keyFor .named target m (some text) = text by simp [keyFor, nonempty]] at entered
  have ref : found.ref = .named name := by
    rw [← register_ref (show s.indexed .named text = some name from reserved) m, entered]
  exact .known inside (by rw [ref]; rfl) (.inl (by rw [ref]; exact kept))

end ApiGraph
