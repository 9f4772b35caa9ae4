import ApiGraph.Proofs.Operations

/-! The models that gather the parameters of an operation, one for each place. Their keys are the name of
the operation with an ending, and no two operations have the same name; so each group of handles that
is not empty gets a model of its own, with a field for each of its handles. -/

namespace ApiGraph

open Resolving Registry

variable {document : Json} {scope : Scope} {p q s : Progress} {r t : Registry} {refs : List Ref}
  {ref? : Option Ref} {texts : List String}

namespace Parameter

/-- The ends of the names under which parameters are gathered. -/
def endings : List String := ["Path", "Query", "Headers"]

/-- A name and its ending can be told from one another. -/
theorem append_ending_inj {a b e f : String} (he : e ∈ endings) (hf : f ∈ endings)
    (h : a ++ e = b ++ f) : a = b ∧ e = f := by
  have lists : a.toList ++ e.toList = b.toList ++ f.toList := by
    rw [← String.toList_append, ← String.toList_append, h]
  obtain rfl : e = f := by
    have last := congrArg List.getLast? lists
    simp only [endings, List.mem_cons, List.not_mem_nil, or_false] at he hf
    rcases he with rfl | rfl | rfl <;> rcases hf with rfl | rfl | rfl <;>
      first | rfl | simp at last
  exact ⟨String.toList_inj.1 (List.append_cancel_right lists), rfl⟩

/-- The name of an operation with an ending does not read as a reference. -/
theorem isLocal_append_ending {taken : List String} {given : List Char} {verb path ending : String}
    (he : ending ∈ endings) : Pointer.isLocal (freeVariant taken
      (String.ofList (Naming.method given verb.toList path.toList)) ++ ending) = false := by
  unfold Pointer.isLocal
  split
  · next c rest hc =>
    have endings : endings.all fun e => decide (IsIdentifier e) := by decide +kernel
    have identifier := of_decide_eq_true (List.all_eq_true.1 endings ending he)
    have mark {d : Char} (other : Text.isWord d = false) : c ≠ d := fun same =>
      (Traversal.isIdentifier_aggregate identifier).head_ne other
        ((congrArg List.head? hc).trans (congrArg some same))
    have dot : c ≠ '.' := mark (by decide)
    have sign : c ≠ '#' := mark (by decide)
    have slash : c ≠ '/' := mark (by decide)
    simp [dot, sign, slash]
  · rfl

/-- Handles are gathered in a model with a field for each of them, which depends on whatever their models
depend on. There is none for no handles. -/
inductive Aggregates (r : Registry) : List Ref → Option Ref → Prop
  | none : Aggregates r [] none
  | some {refs : List Ref} {ms : List Model} {name : String} {m : Model} (full : refs ≠ [])
    (models : List.Forall₂ (fun ref k => r.models.lookup ref.name = some k) refs ms)
    (registered : r.models.lookup name = some m) (kind : m.kind = .methodParam)
    (fields : List.Forall₂ Field.Of ms m.fields)
    (dependencies : m.dependencies = ms.flatMap Model.dependencies) :
    Aggregates r refs (some (.named name))

theorem Aggregates.of_grows {P : String → Prop} (h : Aggregates r refs ref?) (g : Grows P r t) :
    Aggregates t refs ref? := by
  cases h with
  | none => exact .none
  | some full models registered kind fields dependencies =>
    exact .some full (models.imp fun _ _ => g.lookup) (g.lookup registered) kind fields dependencies

/-- Gathered models are those of the handles. -/
theorem Gathered.lookup {location : String} {ms : List Model} (h : Gathered r location refs ms)
    (known : ∀ ref ∈ refs, ∃ name, ref = .named name ∧ r.contains name = true) :
    List.Forall₂ (fun ref k => r.models.lookup ref.name = some k) refs ms := by
  induction h with
  | nil => exact .nil
  | @cons ref rest found m ms required model _ ih =>
    obtain ⟨⟨name, rfl, here⟩, others⟩ := List.forall_mem_cons.1 known
    refine .cons ?_ (ih others)
    obtain ⟨k, hk⟩ := contains_iff.1 here
    have resolved : r.resolve (Ref.named name).name = some ⟨.named name, some k⟩ := by
      simp [Registry.resolve, Ref.named, here, hk]
    simp only [requireRef, resolveRef, show (Ref.named name).isRemote = false from rfl, resolved,
      Bool.false_eq_true, if_false] at required
    obtain rfl := Except.ok.inj required
    exact hk.trans model

end Parameter

namespace Registry

/-- A registration for a new key enters the model under a name that is free. -/
theorem register_new {space : KeySpace} {key : String} (h : r.indexed space key = none) (m : Model) :
    (r.register space key m).1.ref = .named (r.freeName m.name) ∧
      (r.register space key m).2.models.lookup (r.freeName m.name) =
        some (entitled m (r.freeName m.name)) := by
  unfold register
  rw [h]
  exact ⟨rfl, Dict.lookup_put_self _ _ _⟩

end Registry

/-- Each key that does not read as a reference is the name of an operation with an ending. -/
def Progress.Keyed (p : Progress) : Prop :=
  ∀ key name, Pointer.isLocal key = false → p.registry.named.lookup key = some name →
    ∃ method ∈ p.methodNames, ∃ ending ∈ Parameter.endings, key = method ++ ending

/-- What a gathering of parameters leaves apart from the models: nothing but the name of its key. -/
structure Progress.Gathers (p : Progress) (key : String) (q : Progress) : Prop where
  notices : q.notices = p.notices
  methodNames : q.methodNames = p.methodNames
  other : ∀ name, name ≠ key → q.registry.named.lookup name = p.registry.named.lookup name

theorem Parameter.append_ending_ne_empty {name ending : String} (he : ending ∈ endings) :
    name ++ ending ≠ "" := by
  intro empty
  rw [(String.append_eq_empty_iff.1 empty).2] at he
  exact absurd he (by decide)

theorem Parameter.gathers {name ending : String} (he : ending ∈ endings)
    (h : Runs (gather scope refs (name ++ ending)) p ref? q) : p.Gathers (name ++ ending) q := by
  obtain ⟨-, rfl, -⟩ | ⟨_, _, _, _, -, -, -, ha, -, rfl⟩ := gather_cases h
  · exact ⟨rfl, rfl, fun _ _ => rfl⟩
  · exact ⟨rfl, rfl, fun _ other => lookup_assert_named (append_ending_ne_empty he) other ha⟩

/-- Handles of registered models are gathered under a key that is new. -/
theorem Parameter.gather_aggregates {name : String} {R : String → Prop} (sound : p.registry.Sound R)
    (nonempty : name ≠ "") (new : p.registry.named.lookup name = none)
    (known : ∀ ref ∈ refs, ∃ n, ref = .named n ∧ p.registry.contains n = true)
    (h : Runs (gather scope refs name) p ref? q) : Aggregates q.registry refs ref? := by
  obtain ⟨rfl, rfl, rfl⟩ | ⟨ms, fs, found, t, full, gathered, fields, ha, rfl, rfl⟩ := gather_cases h
  · exact .none
  have grown : Grows (fun _ => False) p.registry t := ((extends_assert ha) sound).2.of_new
  have registered := assert_model rfl ha
  rw [show keyFor .named .null _ (some name) = name by simp [keyFor, nonempty]] at registered
  obtain ⟨named, entered⟩ := register_new (show p.registry.indexed .named name = none from new)
    { Model.blank name .methodParam with fields := fs, dependencies := ms.flatMap Model.dependencies }
  rw [registered] at named entered
  rw [named]
  exact .some full ((gathered.lookup known).imp fun _ _ => grown.lookup) entered rfl fields rfl

namespace Progress.Keyed

theorem tells (h : p.Keyed) (told : p.Tells texts q) : q.Keyed := by
  intro key name far hn
  rw [told.methodNames]
  exact h key name far ((told.outside key (Pointer.head_ne_of_isLocal far)).symm.trans hn)

theorem claims {method : String} (h : p.Keyed) (registry : q.registry = p.registry)
    (names : q.methodNames = method :: p.methodNames) : q.Keyed := by
  intro key name far hn
  rw [registry] at hn
  obtain ⟨other, mem, ending⟩ := h key name far hn
  exact ⟨other, names ▸ List.mem_cons_of_mem _ mem, ending⟩

theorem gathers {method ending : String} (h : p.Keyed) (mem : method ∈ p.methodNames)
    (he : ending ∈ Parameter.endings) (run : p.Gathers (method ++ ending) q) :
    q.Keyed ∧ method ∈ q.methodNames := by
  refine ⟨fun key name far hn => ?_, run.methodNames ▸ mem⟩
  rw [run.methodNames]
  by_cases same : key = method ++ ending
  · exact ⟨method, mem, ending, he, same⟩
  · exact h key name far ((run.other key same).symm.trans hn)

/-- A name that no operation has gives new keys. -/
theorem new {method ending : String} (h : p.Keyed) (fresh : method ∉ p.methodNames)
    (he : ending ∈ Parameter.endings) (far : Pointer.isLocal (method ++ ending) = false) :
    p.registry.named.lookup (method ++ ending) = none := by
  refine Option.eq_none_iff_forall_ne_some.2 fun name hn => ?_
  obtain ⟨other, mem, _, he', same⟩ := h _ name far hn
  exact fresh ((Parameter.append_ending_inj he he' same).1 ▸ mem)

end Progress.Keyed

/-- The parameters of an operation are gathered place by place. -/
structure Method.Aggregated (r : Registry) (m : Method) : Prop where
  path : Parameter.Aggregates r m.pathParams m.pathObject
  query : Parameter.Aggregates r m.queryParams m.queryObject
  header : Parameter.Aggregates r m.headerParams m.headerObject

theorem Method.Aggregated.of_grows {P : String → Prop} {m : Method} (h : m.Aggregated r)
    (g : Grows P r t) : m.Aggregated t :=
  ⟨h.path.of_grows g, h.query.of_grows g, h.header.of_grows g⟩

/-- The groups of an operation are gathered under keys that are new, since its name is. -/
theorem Method.gather_groups {m : Method} {p₁ p₂ : Progress} {R : String → Prop}
    (sound : p.registry.Sound R) (new : ∀ ending ∈ Parameter.endings,
      p.registry.named.lookup (m.name ++ ending) = none)
    (known : ∀ ref ∈ m.pathParams ++ m.queryParams ++ m.headerParams,
      ∃ n, ref = .named n ∧ p.registry.contains n = true)
    (h₁ : Runs (Parameter.gather scope m.pathParams (m.name ++ "Path")) p m.pathObject p₁)
    (h₂ : Runs (Parameter.gather scope m.queryParams (m.name ++ "Query")) p₁ m.queryObject p₂)
    (h₃ : Runs (Parameter.gather scope m.headerParams (m.name ++ "Headers")) p₂ m.headerObject q) :
    m.Aggregated q.registry := by
  have apart {e f : String} (he : e ∈ Parameter.endings) (hf : f ∈ Parameter.endings) (ne : e ≠ f) :
      m.name ++ e ≠ m.name ++ f := fun same => ne (Parameter.append_ending_inj he hf same).2
  have path := Parameter.gathers (by decide) h₁
  have query := Parameter.gathers (by decide) h₂
  obtain ⟨sound₁, grown₁⟩ := extends_gather h₁ sound
  obtain ⟨sound₂, grown₂⟩ := extends_gather h₂ sound₁
  obtain ⟨-, grown₃⟩ := extends_gather h₃ sound₂
  have a₁ := Parameter.gather_aggregates sound (Parameter.append_ending_ne_empty (by decide))
    (new "Path" (by decide))
    (fun ref hr => known ref (by simp [hr])) h₁
  have a₂ := Parameter.gather_aggregates sound₁ (Parameter.append_ending_ne_empty (by decide))
    ((path.other _ (apart (by decide) (by decide) (by decide))).trans (new "Query" (by decide)))
    (fun ref hr => (known ref (by simp [hr])).imp fun _ x => x.imp_right grown₁.contains) h₂
  have a₃ := Parameter.gather_aggregates sound₂ (Parameter.append_ending_ne_empty (by decide))
    ((query.other _ (apart (by decide) (by decide) (by decide))).trans
      ((path.other _ (apart (by decide) (by decide) (by decide))).trans (new "Headers" (by decide))))
    (fun ref hr => (known ref (by simp [hr])).imp fun _ x =>
      x.imp_right fun hc => grown₂.contains (grown₁.contains hc)) h₃
  exact ⟨(a₁.of_grows grown₂).of_grows grown₃, a₂.of_grows grown₃, a₃⟩

end ApiGraph
