import ApiGraph.Proofs.Registry.Coherence

/-! Sequences of calls on the registry. The tables agree after every sequence, and each call only
adds to what is there. A resolution makes its changes by such calls, so the same holds for it. -/

namespace ApiGraph.Registry

/-- The calls that led from the empty registry to a registry. A key is redirected only to a name
that is taken. -/
inductive History : List Call → Registry → Prop
  | start : History [] .empty
  | call {calls : List Call} {r : Registry} (c : Call) (before : History calls r)
    (allowed : Allowed (fun _ => True) r c) : History (calls ++ [c]) (r.after c)

variable {R : String → Prop} {r s t : Registry}

theorem Allowed.mono {R' : String → Prop} {c : Call} (h : Allowed R r c)
    (hR : ∀ key name, c = .redirect key name → R' key) : Allowed R' r c :=
  fun key name hc => ⟨hR key name hc, (h key name hc).2⟩

theorem Coherent.mono {R' : String → Prop} (h : Coherent R r) (hR : ∀ key, R key → R' key) :
    Coherent R' r :=
  ⟨h.name_of_model, h.taken_of_model, h.taken_of_key, h.taken_of_content, h.model_of_content,
    h.content_unique, fun hk => h.apart fun hr => hk (hR _ hr)⟩

theorem Coherent.after (h : Coherent R r) {c : Call} (ha : Allowed R r c) :
    Coherent R (r.after c) ∧ Grows R r (r.after c) :=
  have he := after_effect h.model_of_content ha
  ⟨h.step he, h.grows he⟩

theorem coherent_empty : Coherent R .empty := by
  constructor <;> intros <;> simp_all [empty, contains, Dict.has]

theorem History.coherent {calls : List Call} (h : History calls r) :
    Coherent (fun key => ∃ target, Call.redirect key target ∈ calls) r := by
  induction h with
  | start => exact coherent_empty
  | @call calls r c _ allowed ih =>
    have hm : Coherent (fun key => ∃ target, Call.redirect key target ∈ calls ++ [c]) r :=
      ih.mono fun key ⟨target, ht⟩ => ⟨target, List.mem_append_left _ ht⟩
    refine (hm.after (allowed.mono fun key name hc => ⟨name, ?_⟩)).1
    simp [hc]

/-- After any sequence of calls every model has the name it is registered under, every name in use
is taken, the names of contents have models, are different for different contents and are apart
from the names of keys that were never redirected; and one more call changes, reorders and
removes no model, and gives no taken name back. -/
theorem tables_agree {calls : List Call} (h : History calls r) :
    Coherent (fun key => ∃ target, Call.redirect key target ∈ calls) r ∧
      ∀ c, Allowed (fun _ => True) r c →
        Grows (fun key => ∃ target, c = .redirect key target) r (r.after c) := by
  refine ⟨h.coherent, fun c allowed => ?_⟩
  have ha : Allowed (fun key => ∃ target, c = .redirect key target) r c :=
    allowed.mono fun key name hc => ⟨name, hc⟩
  exact h.coherent.grows (after_effect h.coherent.model_of_content ha)

/-- A component with a second key, and a model without a name that has the same content. -/
def petCalls : List Call :=
  [.reserve "#/components/schemas/Pet" "Pet", .redirect "#/x/Pet" "Pet",
    .assert (.obj []) (.model (.blank "Pet" .schema)) (some "#/components/schemas/Pet") .named "",
    .assert (.obj []) (.model (.blank "Pet" .schema)) none .structural ""]

theorem tables_agree_pets :
    History petCalls (petCalls.foldl after .empty) ∧
      Coherent (fun key => ∃ target, Call.redirect key target ∈ petCalls)
        (petCalls.foldl after .empty) := by
  have h : History petCalls (petCalls.foldl after .empty) := by
    refine .call _ (.call _ (.call _ (.call _ .start ?_) ?_) ?_) ?_ <;> intro key name hc <;> cases hc
    exact ⟨trivial, by decide⟩
  exact ⟨h, (tables_agree h).1⟩

end ApiGraph.Registry
