import ApiGraph.Proofs.Registry.History
import ApiGraph.Proofs.Resolve.Extension

/-! The two lookups of the registry. One asks which name stands for a key, and takes the key for a
name when there is none; the other one takes it for a name first. They part at a key that stands for
a name and is itself the name of another model, and nowhere else. Where such keys come from is told
from the calls: some call declared the key, and some call asked for a name that it is a variant
of. -/

namespace ApiGraph.Registry

variable {r : Registry} {calls : List Call} {c : Call} {key name base : String} {m : Model}

/-- Whether a key stands for a name and is itself the name of another model. -/
def Overshadowed (r : Registry) (key : String) : Prop :=
  r.contains key = true ∧ ∃ name, r.named.lookup key = some name ∧ name ≠ key

theorem resolve_of_lookup (h : r.models.lookup name = some m) :
    r.resolve name = some ⟨.named name, some m⟩ := by
  have contains : r.contains name = true := contains_iff.2 ⟨m, h⟩
  rw [resolve, contains, if_pos rfl, h]
  rfl

theorem resolve_of_named (missing : r.contains key = false) (h : r.named.lookup key = some name) :
    r.resolve key = (r.models.lookup name).map fun m => ⟨.named name, some m⟩ := by
  simp [resolve, missing, h]

theorem resolve_of_unknown (h : r.lookupRef key = none) : r.resolve key = none := by
  obtain ⟨new, missing⟩ := lookupRef_eq_none h
  rw [resolve, missing, new, if_neg Bool.false_ne_true, Option.getD_none,
    contains_eq_false_iff.1 missing]
  rfl

theorem resolve_of_overshadowed (h : r.Overshadowed key) :
    ∃ m, r.models.lookup key = some m ∧ r.resolve key = some ⟨.named key, some m⟩ :=
  have ⟨m, hm⟩ := contains_iff.1 h.1
  ⟨m, hm, resolve_of_lookup hm⟩

/-- The lookups agree on a key exactly when it is not overshadowed. -/
theorem resolve_eq_iff (h : r.lookupRef key = some (.named name))
    (hm : r.models.lookup name = some m) :
    r.resolve key = some ⟨.named name, some m⟩ ↔ ¬ r.Overshadowed key := by
  constructor
  · rintro agree shadowed
    obtain ⟨k, -, hk⟩ := resolve_of_overshadowed shadowed
    obtain ⟨other, known, differs⟩ := shadowed.2
    have self : key = name := by
      rw [hk] at agree
      exact congrArg (fun x : Resolved => x.ref.name) (Option.some.inj agree)
    rw [lookupRef, known] at h
    exact differs ((congrArg Ref.name (Option.some.inj h)).trans self.symm)
  · intro plain
    obtain ⟨other, same, known | ⟨rfl, -⟩⟩ := lookupRef_eq_some h
    · obtain rfl : name = other := congrArg Ref.name same
      cases registered : r.contains key with
      | true =>
        have self : name = key := by
          by_contra differs
          exact plain ⟨registered, name, known, differs⟩
        exact self ▸ resolve_of_lookup hm
      | false => rw [resolve_of_named registered known, hm]; rfl
    · obtain rfl : name = other := congrArg Ref.name same
      exact resolve_of_lookup hm

/-! Where overshadowed keys come from. -/

/-- The keys that a call lets a name stand for. -/
inductive Call.Declares : Call → String → Prop
  | reserve {key name : String} : Declares (.reserve key name) key
  | redirect {key name : String} : Declares (.redirect key name) key
  | assert {raw : Json} {m : Model} {hint : Option String} {location : String} :
    Declares (.assert raw (.model m) hint .named location) (keyFor .named raw m hint)

/-- The names that a call asks for. -/
inductive Call.Asks : Call → String → Prop
  | reserve {key name : String} : Asks (.reserve key name) name
  | claim {name : String} : Asks (.claim name) name
  | assert {raw : Json} {m : Model} {hint : Option String} {space : KeySpace} {location : String} :
    Asks (.assert raw (.model m) hint space location) m.name

/-- Whether a name is another one, or that one with a number. -/
def IsVariant (base name : String) : Prop := name = base ∨ ∃ k, name = numbered base k

theorem isVariant_freeName (r : Registry) (base : String) : IsVariant base (r.freeName base) := by
  by_cases h : base ∈ r.taken
  · obtain ⟨k, -, hk, -⟩ := freeVariant_spec h
    exact .inr ⟨k, hk⟩
  · exact .inl (freeVariant_of_not_mem h)

theorem register_taken {space : KeySpace} (h : name ∈ (r.register space key m).2.taken) :
    name ∈ r.taken ∨ IsVariant m.name name := by
  unfold register at h
  split at h
  · split at h
    · exact .inl h
    · exact .inl h
  · have claimed : name ∈ r.freeName m.name :: r.taken := by cases space <;> exact h
    rcases List.mem_cons.1 claimed with rfl | old
    · exact .inr (isVariant_freeName r m.name)
    · exact .inl old

theorem register_named {space : KeySpace} {k : String}
    (h : (r.register space key m).2.named.lookup k = some name) :
    r.named.lookup k = some name ∨ (space = .named ∧ k = key) := by
  unfold register at h
  split at h
  · split at h
    · exact .inl h
    · exact .inl h
  · cases space with
    | named =>
      rcases lookup_put_cases h with ⟨here, -⟩ | old
      · exact .inr ⟨rfl, here⟩
      · exact .inl old
    | structural => exact .inl h

/-- What a call takes it asked for, and what it names it declares. -/
theorem after_origin (r : Registry) (c : Call) :
    (∀ name ∈ (r.after c).taken, name ∈ r.taken ∨ ∃ base, c.Asks base ∧ IsVariant base name) ∧
    ∀ key name, (r.after c).named.lookup key = some name →
      r.named.lookup key = some name ∨ c.Declares key := by
  cases c with
  | reserve key base =>
    cases known : r.named.lookup key with
    | some name =>
      have same : r.after (.reserve key base) = r := by simp [after, reserve, known]
      rw [same]
      exact ⟨fun _ => .inl, fun _ _ => .inl⟩
    | none =>
      have fresh : r.after (.reserve key base) = (r.reserve key base).2 := rfl
      rw [fresh, reserve_new known]
      refine ⟨fun name hn => ?_, fun k name hk => ?_⟩
      · rcases List.mem_cons.1 hn with rfl | old
        · exact .inr ⟨base, .reserve, isVariant_freeName r base⟩
        · exact .inl old
      · rcases lookup_put_cases hk with ⟨rfl, -⟩ | old
        · exact .inr .reserve
        · exact .inl old
  | claim base =>
    refine ⟨fun name hn => ?_, fun _ _ => .inl⟩
    rcases List.mem_cons.1 hn with rfl | old
    · exact .inr ⟨base, .claim, isVariant_freeName r base⟩
    · exact .inl old
  | redirect key target =>
    refine ⟨fun _ => .inl, fun k name hk => ?_⟩
    rcases lookup_put_cases hk with ⟨rfl, -⟩ | old
    · exact .inr .redirect
    · exact .inl old
  | assert raw parsed hint space location =>
    cases h : r.assert raw parsed hint space location with
    | error f => simp only [after, h]; exact ⟨fun _ => .inl, fun _ _ => .inl⟩
    | ok x =>
      obtain ⟨found, s⟩ := x
      simp only [after, h]
      obtain rfl | ⟨m, rfl, registered⟩ := assert_cases h
      · exact ⟨fun _ => .inl, fun _ _ => .inl⟩
      · obtain rfl : (r.register space (keyFor space raw m hint) m).2 = s := by rw [registered]
        refine ⟨fun name hn => (register_taken hn).imp id fun variant => ⟨_, .assert, variant⟩, ?_⟩
        intro key name hk
        refine (register_named hk).imp id ?_
        rintro ⟨rfl, rfl⟩
        exact .assert

/-- By induction on the history. -/
theorem History.origin (h : History calls r) :
    (∀ name ∈ r.taken, ∃ c ∈ calls, ∃ base, c.Asks base ∧ IsVariant base name) ∧
    ∀ key name, r.named.lookup key = some name → ∃ c ∈ calls, c.Declares key := by
  induction h with
  | start => exact ⟨fun _ hn => (List.not_mem_nil hn).elim, fun _ _ hn => by cases hn⟩
  | @call calls r c before _ ih =>
    obtain ⟨taken, named⟩ := after_origin r c
    have last : c ∈ calls ++ [c] := List.mem_append_right _ (List.mem_singleton.2 rfl)
    refine ⟨fun name hn => ?_, fun key name hk => ?_⟩
    · rcases taken name hn with old | ⟨base, asked⟩
      · obtain ⟨c', hc', asked⟩ := ih.1 name old
        exact ⟨c', List.mem_append_left _ hc', asked⟩
      · exact ⟨c, last, base, asked⟩
    · rcases named key name hk with old | declared
      · obtain ⟨c', hc', declared⟩ := ih.2 key name old
        exact ⟨c', List.mem_append_left _ hc', declared⟩
      · exact ⟨c, last, declared⟩

/-- After any sequence of calls, a key that stands for a registered name leads to its model in both
lookups unless it is overshadowed, and a key that is unknown to one lookup is so to the other. An
overshadowed key was declared by some call, and is a variant of a name that some call asked for; as
a name it leads to the model that has the name. -/
theorem lookups_agree (h : History calls r) (key : String) :
    (∀ name m, r.lookupRef key = some (.named name) → r.models.lookup name = some m →
      (r.resolve key = some ⟨.named name, some m⟩ ↔ ¬ r.Overshadowed key)) ∧
    (r.lookupRef key = none → r.resolve key = none) ∧
    (r.Overshadowed key →
      (∃ c ∈ calls, c.Declares key) ∧
      (∃ c ∈ calls, ∃ base, c.Asks base ∧ IsVariant base key) ∧
      ∃ m, m.name = key ∧ r.resolve key = some ⟨.named key, some m⟩) := by
  refine ⟨fun name m => resolve_eq_iff, resolve_of_unknown, fun shadowed => ?_⟩
  obtain ⟨taken, named⟩ := h.origin
  obtain ⟨m, hm, found⟩ := resolve_of_overshadowed shadowed
  obtain ⟨registered, name, known, -⟩ := shadowed
  exact ⟨named key name known, taken key (h.coherent.taken_of_model registered),
    m, h.coherent.name_of_model hm, found⟩

/-- A component, and the parameters of an operation under the name that the component has. -/
def listCalls : List Call :=
  [.reserve "#/components/schemas/ListQuery" "ListQuery",
    .assert (.obj []) (.model (.blank "ListQuery" .schema)) (some "#/components/schemas/ListQuery")
      .named "",
    .assert .null (.model (.blank "ListQuery" .methodParam)) (some "ListQuery") .named ""]

/-- The registry after these calls. -/
def lists : Registry := listCalls.foldl after .empty

theorem lists_history : History listCalls lists := by
  refine .call _ (.call _ (.call _ .start ?_) ?_) ?_ <;> intro key name hc <;> cases hc

theorem lists_overshadowed : lists.Overshadowed "ListQuery" :=
  ⟨by decide, "ListQuery2", by decide, by decide⟩

/-- The key of the component leads to it in both lookups; the name is a key of the parameters. -/
theorem lookups_agree_lists :
    History listCalls lists ∧
      lists.lookupRef "#/components/schemas/ListQuery" = some (.named "ListQuery") ∧
      (∃ m, lists.resolve "#/components/schemas/ListQuery" = some ⟨.named "ListQuery", some m⟩) ∧
      lists.lookupRef "Lists" = none ∧ (lists.resolve "Lists").isNone = true ∧
      lists.Overshadowed "ListQuery" ∧ ∃ c ∈ listCalls, c.Declares "ListQuery" := by
  have known : lists.lookupRef "#/components/schemas/ListQuery" = some (.named "ListQuery") := by
    decide
  have unknown : lists.lookupRef "Lists" = none := by decide
  have plain : ¬ lists.Overshadowed "#/components/schemas/ListQuery" := fun h => by
    have missing : lists.contains "#/components/schemas/ListQuery" = false := by decide
    rw [h.1] at missing
    cases missing
  obtain ⟨m, hm⟩ := contains_iff.1 (show lists.contains "ListQuery" = true by decide)
  have agree := lookups_agree lists_history
  exact ⟨lists_history, known, ⟨m, ((agree _).1 _ m known hm).2 plain⟩, unknown,
    Option.isNone_iff_eq_none.2 ((agree _).2.1 unknown), lists_overshadowed,
    ((agree _).2.2 lists_overshadowed).1⟩

/-- The parameters of the operation are what one lookup finds under the name, and the component is
what the other one finds. -/
theorem name_of_component_hides_parameters :
    History listCalls lists ∧ lists.lookupRef "ListQuery" = some (.named "ListQuery2") ∧
      lists.contains "ListQuery2" = true ∧
      (∃ m, lists.resolve "ListQuery" = some ⟨.named "ListQuery", some m⟩) ∧
      ¬ ∃ m, lists.resolve "ListQuery" = some ⟨.named "ListQuery2", m⟩ := by
  obtain ⟨m, -, found⟩ := resolve_of_overshadowed lists_overshadowed
  refine ⟨lists_history, by decide, by decide, ⟨m, found⟩, ?_⟩
  rintro ⟨k, other⟩
  rw [found] at other
  have names : "ListQuery" = "ListQuery2" :=
    congrArg (fun x : Resolved => x.ref.name) (Option.some.inj other)
  exact absurd names (by decide)

end ApiGraph.Registry
