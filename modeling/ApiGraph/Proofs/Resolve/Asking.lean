import ApiGraph.Proofs.Json.Inside
import ApiGraph.Proofs.Registry.Coherence
import ApiGraph.Proofs.Resolve.Run

/-! What a computation asks of the resolver that it is given. It asks one question after the other,
each about a part of its node or about the target of a reference that has no name yet, and it
forgets no name. The rules say this for the ways in which computations are put together. -/

namespace ApiGraph

open Resolving

/-- A result, or a failure, with the state that is left. -/
abbrev Upshot (α : Type) := Except Failure α × Progress

/-- Goes on with a result, in the state that was left. -/
def Upshot.bind {α β : Type} (reply : Upshot α) (next : α → Progress → Upshot β) : Upshot β :=
  match reply with
  | (.ok a, s) => next a s
  | (.error e, s) => (.error e, s)

theorem run_bind_eq {α β : Type} (m : Resolving α) (f : α → Resolving β) (p : Progress) :
    (m >>= f).run.run p = Upshot.bind (m.run.run p) fun a s => (f a).run.run s := by
  rw [run_bind]
  generalize m.run.run p = reply
  obtain ⟨_ | _, _⟩ := reply <;> rfl

/-- A question to a resolver: a node to resolve at a site, in a state of a run. -/
structure Question where
  site : Site
  node : Json
  state : Progress

/-- What a resolver replies. -/
def Question.reply (c : Question) (self : Resolver) : Upshot Outcome :=
  (self c.site c.node).run.run c.state

/-- Why a question is asked. -/
inductive Cause where
  /-- A part of a node is to be resolved. -/
  | part
  /-- A reference is followed. -/
  | followed (text : String)

/-- No declared key is forgotten. -/
def Progress.Keeps (p q : Progress) : Prop :=
  Dict.keys p.registry.named ⊆ Dict.keys q.registry.named

/-- A question that a node gives cause for: it is about a strictly smaller part of the node, or
about the target of a local reference in the node, whose text is no key before and a key when the
question is asked. -/
inductive Question.Arises (document node : Json) (p : Progress) (c : Question) : Cause → Prop
  | part (inside : c.node.Inside node) : Arises document node p c .part
  | followed {text : String} {v : Json} (stands : v = node ∨ v.Inside node)
    (isRef : v.get? "$ref" = some (.str text)) (isLocal : Pointer.isLocal text = true)
    (new : text ∉ Dict.keys p.registry.named)
    (leads : Pointer.resolve document text = some c.node)
    (reserved : text ∈ Dict.keys c.state.registry.named) : Arises document node p c (.followed text)

/-- A computation that starts in a state comes to a reply, or asks a question that its node gives
cause for and goes on with the answer. -/
inductive Asks (document node : Json) {α : Type} : Progress → (Resolver → Upshot α) → Prop
  | done {p : Progress} {reply : Upshot α} (keeps : p.Keeps reply.2) :
    Asks document node p fun _ => reply
  | ask {p : Progress} {c : Question} {cause : Cause} {next : Upshot Outcome → Resolver → Upshot α}
    (arises : c.Arises document node p cause) (keeps : p.Keeps c.state)
    (rest : ∀ answer : Upshot Outcome, c.state.Keeps answer.2 →
      Asks document node answer.2 (next answer)) :
    Asks document node p fun self => next (c.reply self) self

/-- A computation asks only what its node gives cause for, in whatever state it starts. -/
def Asking (document node : Json) (m : Resolver → Resolving α) : Prop :=
  ∀ p, Asks document node p fun self => (m self).run.run p

variable {document node v : Json} {p q s : Progress} {α β : Type}

theorem Progress.Keeps.refl (p : Progress) : p.Keeps p := List.Subset.refl _

theorem Progress.Keeps.trans (h : p.Keeps q) (h' : q.Keeps s) : p.Keeps s := List.Subset.trans h h'

namespace Registry

variable {r t : Registry}

theorem keys_register (space : KeySpace) (key : String) (m : Model) :
    Dict.keys r.named ⊆ Dict.keys (r.register space key m).2.named := by
  have put (r : Registry) (name : String) :
      Dict.keys r.named ⊆ Dict.keys (r.index space key name).named := by
    cases space with
    | named => exact fun k hk => Dict.mem_keys_put.2 (Or.inl hk)
    | structural => exact List.Subset.refl _
  unfold register
  split
  · split <;> exact List.Subset.refl _
  · exact put (r.claim m.name).2 (r.claim m.name).1

theorem keys_assert {raw : Json} {parsed : Link Model} {hint : Option String} {space : KeySpace}
    {location : String} {found : Resolved}
    (h : r.assert raw parsed hint space location = .ok (found, t)) :
    Dict.keys r.named ⊆ Dict.keys t.named := by
  obtain rfl | ⟨m, -, hm⟩ := assert_cases h
  · exact List.Subset.refl _
  · have hk := keys_register (r := r) space (keyFor space raw m hint) m
    rwa [hm] at hk

theorem keys_reserve (key name : String) :
    Dict.keys r.named ⊆ Dict.keys (r.reserve key name).2.named ∧
      key ∈ Dict.keys (r.reserve key name).2.named := by
  unfold reserve
  split
  · next known hk => exact ⟨List.Subset.refl _, Dict.mem_keys_of_lookup hk⟩
  · exact ⟨fun k hk => Dict.mem_keys_put.2 (Or.inl hk), Dict.mem_keys_put.2 (Or.inr rfl)⟩

end Registry

theorem Question.Arises.mono {c : Question} {cause : Cause} (h : c.Arises document node q cause)
    (hk : p.Keeps q) : c.Arises document node p cause := by
  cases h with
  | part inside => exact .part inside
  | followed stands isRef isLocal new leads reserved =>
    exact .followed stands isRef isLocal (fun hp => new (hk hp)) leads reserved

namespace Asks

theorem mono {F : Resolver → Upshot α} (h : Asks document node q F) (hk : p.Keeps q) :
    Asks document node p F := by
  cases h with
  | done keeps => exact .done (hk.trans keeps)
  | ask arises keeps rest => exact .ask (arises.mono hk) (hk.trans keeps) rest

/-- No key is forgotten when no answer forgets one. -/
theorem keeps {F : Resolver → Upshot α} (h : Asks document node p F) (self : Resolver)
    (answers : ∀ c : Question, c.state.Keeps (c.reply self).2) : p.Keeps (F self).2 := by
  induction h with
  | done keeps => exact keeps
  | ask _ keeps _ ih => exact (keeps.trans (answers _)).trans (ih _ (answers _))

theorem bind {m : Resolver → Resolving α} {f : Resolver → α → Resolving β}
    (hm : Asks document node p fun self => (m self).run.run p)
    (hf : ∀ a q, Asks document node q fun self => (f self a).run.run q) :
    Asks document node p fun self => (m self >>= f self).run.run p := by
  have all {p : Progress} {F : Resolver → Upshot α} (h : Asks document node p F) :
      Asks document node p fun self => (F self).bind fun a s => (f self a).run.run s := by
    induction h with
    | @done p reply keeps =>
      obtain ⟨_ | a, s⟩ := reply
      · exact .done keeps
      · exact (hf a s).mono keeps
    | ask arises keeps _ ih => exact .ask arises keeps ih
  simpa only [run_bind_eq] using all hm

/-- A question, and what comes after it. -/
theorem ask_bind {c : Question} {cause : Cause} {f : Resolver → Outcome → Resolving α}
    (arises : c.Arises document node p cause) (keeps : p.Keeps c.state)
    (hf : ∀ a q, Asks document node q fun self => (f self a).run.run q) :
    Asks document node p fun self => (self c.site c.node >>= f self).run.run c.state := by
  simp only [run_bind_eq]
  refine @Asks.ask document node α p c cause
    (fun answer self => answer.bind fun a s => (f self a).run.run s) arises keeps ?_
  rintro ⟨_ | a, s⟩ -
  · exact .done (.refl s)
  · exact hf a s

/-- What comes after a computation that asks nothing may rest on its result. -/
theorem bind_of {m : Resolving α} {f : Resolver → α → Resolving β}
    (keeps : p.Keeps (m.run.run p).2)
    (hf : ∀ a q, Runs m p a q → Asks document node q fun self => (f self a).run.run q) :
    Asks document node p fun self => (m >>= f self).run.run p := by
  simp only [run_bind_eq]
  generalize hr : m.run.run p = reply at keeps
  obtain ⟨_ | a, s⟩ := reply
  · exact .done keeps
  · exact (hf a s hr).mono keeps

end Asks

namespace Asking

theorem pure (a : α) : Asking document node fun _ => Pure.pure a := fun p => .done (.refl p)

theorem fail (e : Failure) : Asking document node fun _ => (Resolving.fail e : Resolving α) :=
  fun p => .done (.refl p)

theorem malformed (flaw : Schema.Flaw) (location : String) :
    Asking document node fun _ => (Resolving.malformed flaw location : Resolving α) :=
  fun p => .done (.refl p)

theorem bind {m : Resolver → Resolving α} {f : Resolver → α → Resolving β}
    (hm : Asking document node m) (hf : ∀ a, Asking document node fun self => f self a) :
    Asking document node fun self => m self >>= f self :=
  fun p => (hm p).bind fun a => hf a

theorem fail_bind {e : Failure} {f : Resolver → α → Resolving β} :
    Asking document node fun self => Resolving.fail e >>= f self :=
  fun p => .bind_of (.refl p) fun _ _ h => (runs_fail.1 h).elim

theorem malformed_bind {flaw : Schema.Flaw} {location : String} {f : Resolver → α → Resolving β} :
    Asking document node fun self => Resolving.malformed flaw location >>= f self :=
  fail_bind

theorem ite {c : Prop} [Decidable c] {m m' : Resolver → Resolving α}
    (h : c → Asking document node m) (h' : ¬ c → Asking document node m') :
    Asking document node fun self => if c then m self else m' self := by
  by_cases hc : c
  · simpa only [if_pos hc] using h hc
  · simpa only [if_neg hc] using h' hc

theorem registry : Asking document node fun _ => Resolving.registry := fun p => .done (.refl p)

theorem freeName (name : String) : Asking document node fun _ => Resolving.freeName name :=
  fun p => .done (.refl p)

theorem claim (name : String) : Asking document node fun _ => Resolving.claim name :=
  fun p => .done (.refl p)

theorem fit {x : Shape.Checked α} : Asking document node fun _ => Resolving.fit x := by
  cases x with
  | fits a => exact pure a
  | fails ms => exact fail _

/-- What comes after a computation that asks nothing may rest on its result. -/
theorem bind_of {m : Resolving α} {f : Resolver → α → Resolving β}
    (hm : Asking document node fun _ => m)
    (hf : ∀ a, (∃ p q, Runs m p a q) → Asking document node fun self => f self a) :
    Asking document node fun self => m >>= f self := by
  intro p
  have keeps : p.Keeps (m.run.run p).2 :=
    (hm p).keeps (fun _ _ => Resolving.fail (.misuse .endless)) fun c => .refl c.state
  exact .bind_of keeps fun a q h => hf a ⟨p, q, h⟩ q

theorem assert (raw : Json) (parsed : Link Model) (hint : Option String) (space : KeySpace)
    (location : String) :
    Asking document node fun _ => Resolving.assert raw parsed hint space location := by
  intro p
  refine Asks.bind_of (.refl p) fun r q hr => ?_
  obtain ⟨rfl, rfl⟩ := runs_registry.1 hr
  have keeps : p.Keeps
      ((Resolving.lift (p.registry.assert raw parsed hint space location)).run.run p).2 := by
    cases p.registry.assert raw parsed hint space location <;> exact .refl p
  refine Asks.bind_of keeps fun ⟨found, t⟩ q hf => ?_
  obtain ⟨registered, rfl⟩ := runs_lift.1 hf
  exact .done (Registry.keys_assert registered)

/-- A part of the node is resolved. -/
theorem part (h : v.Inside node) (site : Site) : Asking document node fun self => self site v :=
  fun p => @Asks.ask document node Outcome p ⟨site, v, p⟩ .part (fun answer _ => answer) (.part h)
    (.refl p) fun answer _ => .done (.refl answer.2)

end Asking

end ApiGraph
