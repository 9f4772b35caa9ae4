import ApiGraph.Proofs.Links
import ApiGraph.Proofs.Resolve.Collection

/-! Handles lead to models. A handle may be given out while its name is only reserved; the name is
pending then, and whoever reserved it registers a model under it. The one exception is a followed
reference whose target is nothing but another reference: its name is given up, and handles with
that name lead nowhere. -/

namespace ApiGraph

open Resolving Registry

/-- A name that may have been given up: it is a variant of the name for a reference that was
followed to a node that is nothing but a reference. -/
def Forsaken (document : Json) (r : Registry) (name : String) : Prop :=
  ∃ text target taken, r.named.lookup text ≠ none ∧ Component.Undeclared document text ∧
    Pointer.resolve document text = some target ∧ target.has "$ref" = true ∧
    name = freeVariant taken (pointerName text)

/-- A name leads to a model, or is pending, or was given up. -/
def Kept (document : Json) (pending : String → Prop) (r : Registry) (name : String) : Prop :=
  r.contains name = true ∨ pending name ∨ Forsaken document r name

/-- All handles in some links have names that lead somewhere. -/
def AllKept (document : Json) (pending : String → Prop) (r : Registry) (links : List (Link Model)) :
    Prop :=
  ∀ ref, (Link.ref ref).Within links → ref.isRemote = false → Kept document pending r ref.name

/-- All names of keys, and all handles in registered models, lead somewhere. -/
structure Closed (document : Json) (pending : String → Prop) (r : Registry) : Prop where
  keys : ∀ {key name}, r.named.lookup key = some name → Kept document pending r name
  models : ∀ {name m}, (name, m) ∈ r.models → AllKept document pending r m.inner

variable {document : Json} {pending now : String → Prop} {R P : String → Prop} {r s : Registry}
  {name : String} {links more : List (Link Model)}

theorem Kept.mono (h : Kept document pending r name) (g : Grows P r s) :
    Kept document pending s name := by
  obtain h | h | ⟨text, target, taken, hk, h⟩ := h
  · exact Or.inl (g.contains h)
  · exact Or.inr (Or.inl h)
  · exact Or.inr (Or.inr ⟨text, target, taken, g.key hk, h⟩)

/-- Names that are no longer pending lead somewhere by now. -/
theorem Kept.settle (h : Kept document pending r name)
    (hn : ∀ name, pending name → Kept document now r name) : Kept document now r name := by
  obtain h | h | h := h
  · exact Or.inl h
  · exact hn name h
  · exact Or.inr (Or.inr h)

namespace AllKept

theorem mono (h : AllKept document pending r links) (g : Grows P r s) :
    AllKept document pending s links := fun ref hw hr => (h ref hw hr).mono g

theorem settle (h : AllKept document pending r links)
    (hn : ∀ name, pending name → Kept document now r name) : AllKept document now r links :=
  fun ref hw hr => (h ref hw hr).settle hn

theorem sub (h : AllKept document pending r links) (hs : more ⊆ links) :
    AllKept document pending r more := fun ref hw hr => h ref (hw.sub hs) hr

theorem nil : AllKept document pending r [] := fun _ hw => absurd hw Link.not_within_nil

theorem append (h₁ : AllKept document pending r links) (h₂ : AllKept document pending r more) :
    AllKept document pending r (links ++ more) :=
  fun ref hw hr => (Link.within_append.1 hw).elim (h₁ ref · hr) (h₂ ref · hr)

theorem handle {ref : Ref} (h : ref.isRemote = false → Kept document pending r ref.name) :
    AllKept document pending r [.ref ref] := by
  intro ref' hw hr
  obtain rfl := Link.ref.inj (Link.within_ref.1 hw)
  exact h hr

theorem kept {ref : Ref} (h : AllKept document pending r [.ref ref]) (hr : ref.isRemote = false) :
    Kept document pending r ref.name := h ref (Link.within_ref.2 rfl) hr

theorem model {m : Model} (h : AllKept document pending r m.inner) :
    AllKept document pending r [.model m] := by
  intro ref hw hr
  obtain he | hw := Link.within_model.1 hw
  · cases he
  · exact h ref hw hr

theorem inner {link : Link Model} (h : AllKept document pending r [link]) :
    AllKept document pending r link.inner := fun ref hw hr => h ref hw.of_inner hr

end AllKept

namespace Closed

theorem settle (h : Closed document pending r)
    (hn : ∀ name, pending name → Kept document now r name) : Closed document now r :=
  ⟨fun hk => (h.keys hk).settle hn, fun hm => (h.models hm).settle hn⟩

/-- More taken names leave all as it is. -/
theorem claimed (h : Closed document pending r) (link : Link Model) :
    Closed document pending (r.claimed link) ∧
      ∀ links, AllKept document pending r links → AllKept document pending (r.claimed link) links := by
  cases link with
  | ref _ => exact ⟨h, fun _ => id⟩
  | model m => exact ⟨⟨fun hk => h.keys hk, fun hm => h.models hm⟩, fun _ h => h⟩

theorem assert {raw : Json} {parsed : Link Model} {hint : Option String} {space : KeySpace}
    {location : String} {found : Resolved} (h : Closed document pending r) (hs : r.Sound R)
    (hin : AllKept document pending r parsed.inner)
    (ha : r.assert raw parsed hint space location = .ok (found, s)) :
    Closed document pending s ∧ AllKept document pending s [.ref found.ref] := by
  have g := (extends_assert ha hs).2
  refine ⟨?_, AllKept.handle fun hr => ?_⟩
  · obtain rfl | ⟨m, rfl, hm⟩ := assert_cases ha
    · exact h
    have hc := register_cases hs.1 space (keyFor space raw m hint) m
    rw [hm] at hc
    obtain rfl | ⟨name, hmodels, -, hnamed, -⟩ := hc
    · exact h
    refine ⟨fun hk => ?_, fun hp => ?_⟩
    · rcases hnamed _ _ hk with rfl | hk
      · exact Or.inl ((contains_put hmodels).2 (Or.inl rfl))
      · exact (h.keys hk).mono g
    · rw [hmodels] at hp
      rcases Dict.mem_put hp with hp | hp
      · exact (h.models hp).mono g
      · cases hp
        exact hin.mono g
  · rcases assert_found ha with ⟨hrem, -⟩ | ⟨name, m, rfl, hm⟩
    · rw [hr] at hrem
      cases hrem
    · exact Or.inl (contains_iff.2 ⟨m, hm⟩)

/-- Only the names of keys change, and the new ones lead somewhere. -/
theorem named (h : Closed document pending r) (g : Grows P r s) (hm : s.models = r.models)
    (hk : ∀ {key name}, s.named.lookup key = some name →
      Kept document pending s name ∨ r.named.lookup key = some name) :
    Closed document pending s :=
  ⟨fun hn => (hk hn).elim id fun ho => (h.keys ho).mono g, fun hp => (h.models (hm ▸ hp)).mono g⟩

/-- A reserved name is pending. -/
theorem reserve (h : Closed document pending r) {key wanted : String}
    (new : r.named.lookup key = none) :
    Closed document (fun name => pending name ∨ name = r.freeName wanted)
      (r.reserve key wanted).2 := by
  have wide : Closed document (fun name => pending name ∨ name = r.freeName wanted) r :=
    h.settle fun name hp => Or.inr (Or.inl (Or.inl hp))
  refine wide.named (grows_reserve (P := fun _ => False) new) (by rw [reserve_new new]) fun hk => ?_
  rw [reserve_new new] at hk
  rcases lookup_put_cases hk with ⟨-, rfl⟩ | hk
  · exact Or.inl (Or.inr (Or.inl (Or.inr rfl)))
  · exact Or.inr hk

theorem redirect {key target : String} (h : Closed document pending r)
    (hk : Kept document pending r target) : Closed document pending (r.redirect key target) := by
  refine h.named (grows_redirect r key target) rfl fun hl => ?_
  rcases lookup_put_cases hl with ⟨-, rfl⟩ | hl
  · exact Or.inl (hk.mono (grows_redirect r key _))
  · exact Or.inr hl

end Closed

/-- What a run does for the handles: with whatever names are pending, what led somewhere still
does, and so do the links that the run leaves. -/
def Closes (document : Json) (r : Registry) (links : List (Link Model)) (s : Registry) : Prop :=
  r.Extends (Component.Undeclared document) s ∧
    ∀ pending, r.Sound (Component.Undeclared document) → Closed document pending r →
      Closed document pending s ∧ AllKept document pending s links

namespace Closes

variable {t : Registry}

theorem refl (h : ∀ pending, r.Sound (Component.Undeclared document) →
      Closed document pending r → AllKept document pending r links) : Closes document r links r :=
  ⟨.refl r, fun pending hs hc => ⟨hc, h pending hs hc⟩⟩

theorem append (h₁ : Closes document r links s) (h₂ : Closes document s more t) :
    Closes document r (links ++ more) t := by
  refine ⟨h₁.1.trans h₂.1, fun pending hs hc => ?_⟩
  obtain ⟨hcs, hl⟩ := h₁.2 pending hs hc
  obtain ⟨hct, hm⟩ := h₂.2 pending (h₁.1 hs).1 hcs
  exact ⟨hct, (hl.mono (h₂.1 (h₁.1 hs).1).2).append hm⟩

theorem sub (h : Closes document r links s) (hs : more ⊆ links) : Closes document r more s :=
  ⟨h.1, fun pending hr hc => ⟨(h.2 pending hr hc).1, (h.2 pending hr hc).2.sub hs⟩⟩

theorem claimed (h : Closes document r links s) (link : Link Model) :
    Closes document r links (s.claimed link) := by
  refine ⟨h.1.trans (extends_claimed s link), fun pending hr hc => ?_⟩
  obtain ⟨hcs, hl⟩ := h.2 pending hr hc
  exact ⟨(hcs.claimed link).1, (hcs.claimed link).2 _ hl⟩

theorem inner {link : Link Model} (h : Closes document r (link :: links) s) :
    Closes document r link.inner s := by
  refine ⟨h.1, fun pending hr hc => ⟨(h.2 pending hr hc).1, ?_⟩⟩
  exact AllKept.inner ((h.2 pending hr hc).2.sub (by simp))

theorem assert {raw : Json} {parsed : Link Model} {hint : Option String} {space : KeySpace}
    {location : String} {found : Resolved} (h : Closes document r parsed.inner s)
    (ha : s.assert raw parsed hint space location = .ok (found, t)) :
    Closes document r [.ref found.ref] t := by
  refine ⟨h.1.trans (extends_assert ha), fun pending hr hc => ?_⟩
  obtain ⟨hcs, hl⟩ := h.2 pending hr hc
  exact hcs.assert (h.1 hr).1 hl ha

end Closes

/-- What the node tells about the outcome: a model comes from a node without a reference, and a
handle from one with a reference unless it was known at once. -/
structure Told (v : Json) (r : Registry) (result : Link Model) (s : Registry) : Prop where
  model : ∀ m, result = .model m → v.has "$ref" = false
  handle : ∀ ref, result = .ref ref → v.has "$ref" = true ∨
    (s = r ∧ ref.isRemote = false ∧ r.contains ref.name = true)

/-- A reservation whose holder got a model is settled. -/
theorem kept_of_contains {reserved : String} (h : r.contains reserved = true) :
    ∀ name, (pending name ∨ name = reserved) → Kept document pending r name := by
  rintro name (hp | rfl)
  · exact Or.inr (Or.inl hp)
  · exact Or.inl h

theorem AllKept.gathered {location : String} {refs : List Ref} {ms : List Model}
    (hc : Closed document pending r) (h : Parameter.Gathered r location refs ms) :
    AllKept document pending r (ms.flatMap Model.dependencies) := by
  have hms := gathered_registered h
  clear h
  induction ms with
  | nil => exact AllKept.nil
  | cons m ms ih =>
    obtain ⟨name, hm⟩ := hms m (by simp)
    rw [List.flatMap_cons]
    exact ((hc.models (Dict.mem_of_lookup hm)).sub (List.subset_append_left _ _)).append
      (ih fun k hk => hms k (List.mem_cons_of_mem _ hk))

/-- A reference that was followed to a handle: its own name was given up, unless the handle was
known at once, and then nothing has used the name. -/
theorem Closes.followed {text : String} {target : Json} {ref : Ref} {needs : List (Link Model)}
    (new : r.named.lookup text = none) (leads : Pointer.resolve document text = some target)
    (h : Closes document (r.reserve text (pointerName text)).2 (.ref ref :: needs) s)
    (told : Told target (r.reserve text (pointerName text)).2 (.ref ref) s)
    (e : r.Extends (Component.Undeclared document)
      (if ref.isRemote then s else s.redirect text ref.name)) :
    Closes document r [.ref ref] (if ref.isRemote then s else s.redirect text ref.name) := by
  refine ⟨e, fun pending hr hc => ?_⟩
  have hr' := (extends_reserve r text (pointerName text) hr).1
  obtain ⟨hcs, hl⟩ := h.2 _ hr' (hc.reserve new)
  have hl : AllKept document _ s [.ref ref] := hl.sub (by simp)
  obtain hb | ⟨rfl, hrem, hcont⟩ := told.handle ref rfl
  · -- Nobody will register the reserved name, which is given up.
    have given : ∀ name, (pending name ∨ name = r.freeName (pointerName text)) →
        Kept document pending s name := by
      rintro name (hp | rfl)
      · exact Or.inr (Or.inl hp)
      · exact Or.inr (Or.inr ⟨text, target, r.taken, (h.1 hr').2.key (by simp [reserve_new new]),
          hr.2 _ new, leads, hb, rfl⟩)
    have hcs := hcs.settle given
    have hl := hl.settle given
    split
    · exact ⟨hcs, hl⟩
    · next hrem =>
      have hc' : Closed document pending (s.redirect text ref.name) :=
        hcs.redirect (hl.kept (by simpa using hrem))
      exact ⟨hc', AllKept.handle fun _ => hc'.keys (Dict.lookup_put_self _ _ _)⟩
  · -- The name was reserved for nothing, and nobody has seen it.
    rw [if_neg (by simp [hrem])]
    have g : Grows (· = text) r ((r.reserve text (pointerName text)).2.redirect text ref.name) :=
      (grows_reserve new).trans (grows_redirect _ text ref.name)
    have known : Kept document pending ((r.reserve text (pointerName text)).2.redirect text ref.name)
        ref.name := Or.inl hcont
    refine ⟨hc.named g (by rw [Registry.redirect, reserve_new new]) fun {key name} hn => ?_,
      AllKept.handle fun _ => known⟩
    by_cases hk : key = text
    · subst hk
      rw [Registry.redirect, Dict.lookup_put_self] at hn
      exact Or.inl (Option.some.inj hn ▸ known)
    · rw [Registry.redirect, Dict.lookup_put_of_ne _ _ (by simpa using hk), reserve_new new,
        Dict.lookup_put_of_ne _ _ (by simpa using hk)] at hn
      exact Or.inr hn

/-- A reference that was followed to a model: the model is registered under the reserved name. -/
theorem Closes.registered {t : Registry} {text location : String} {target : Json} {m : Model}
    {needs : List (Link Model)} {found : Resolved} (new : r.named.lookup text = none)
    (nonempty : text ≠ "")
    (h : Closes document (r.reserve text (pointerName text)).2 (.model m :: needs) s)
    (told : Told target (r.reserve text (pointerName text)).2 (.model m) s)
    (ha : s.assert target (.model m) (some text) .named location = .ok (found, t)) :
    Closes document r [.ref found.ref] t := by
  have e := (extends_reserve (R := Component.Undeclared document) r text (pointerName text)).trans h.1
  refine ⟨e.trans (extends_assert ha), fun pending hr hc => ?_⟩
  have hr' := (extends_reserve r text (pointerName text) hr).1
  obtain ⟨hcs, hl⟩ := h.2 _ hr' (hc.reserve new)
  obtain ⟨hct, hf⟩ := hcs.assert (h.1 hr').1 (AllKept.inner (hl.sub (by simp))) ha
  have hnamed : s.named.lookup text = some (r.freeName (pointerName text)) := by
    have g : Grows (fun _ => False) _ s := (h.1 hr').2.of_new
    exact g.name id (by simp [reserve_new new])
  -- The key still stands for the reserved name, so that the model is registered under it.
  have hcont : t.contains (r.freeName (pointerName text)) = true := by
    have hm := assert_model (told.model m rfl) ha
    rw [show keyFor .named target m (some text) = text by simp [keyFor, nonempty]] at hm
    have hc := contains_of_register hnamed m
    rwa [hm] at hc
  have settled : ∀ name, (pending name ∨ name = r.freeName (pointerName text)) →
      Kept document pending t name := kept_of_contains hcont
  exact ⟨hct.settle settled, hf.settle settled⟩

/-- The resolution of nodes keeps handles leading to models. -/
def closure (document : Json) : Traversal document where
  node site v r out s := (extension document (Component.Undeclared document)).node site v r out s ∧
    Closes document r (out.result :: out.needs) s ∧ Told v r out.result s
  parts _ r links _ s := Closes document r links s
  handle r text ref s :=
    (extension document (Component.Undeclared document)).handle r text ref s ∧
    Closes document r [.ref ref] s
  nothing := .refl fun _ _ _ => AllKept.nil
  append := .append
  weaken h sub _ := h.sub sub
  member _ _ h := h.2.1.claimed _
  item _ h := h.2.1.sub (List.subset_cons_self _ _)
  reference h := h.2
  inner _ _ _ h := h.2.1.inner
  content _ _ _ _ _ h ha := h.2.1.inner.assert ha
  gathered models dependencies branches _ _ _ ha := by
    refine Closes.assert (.refl fun pending _ hc => ?_) ha
    rw [Link.inner, Model.inner, branches, List.append_nil, dependencies]
    exact AllKept.gathered hc models
  model h plain _ _ _ _ dependencies branches passed _ _ _ := by
    refine ⟨⟨h.1, nofun⟩, ⟨h.1, fun pending hr hc => ?_⟩, fun _ _ => plain, fun _ he => by cases he⟩
    obtain ⟨hcs, hl⟩ := h.2 pending hr hc
    exact ⟨hcs, (AllKept.model (hl.sub (List.append_subset.2 ⟨dependencies, branches⟩))).append
      (hl.sub passed)⟩
  refers spells h := ⟨(extension _ _).refers spells h.1, h.2, fun _ he => (by cases he),
    fun _ _ => Or.inl (by rw [Json.has, spells]; rfl)⟩
  known {site v r ref} object plain hf := by
    obtain ⟨name, rfl, -, hc⟩ := findStructural_eq_some hf
    exact ⟨(extension _ _).known object plain hf, .refl fun _ _ _ => AllKept.handle fun _ => Or.inl hc,
      fun _ he => (by cases he), fun _ he => (by cases he; exact Or.inr ⟨rfl, rfl, hc⟩)⟩
  remote h := ⟨(extension _ _).remote h, .refl fun _ _ _ => AllKept.handle fun hr => by cases hr⟩
  declared inside hk := by
    refine ⟨(extension _ _).declared inside hk, .refl fun pending _ hc => AllKept.handle fun _ => ?_⟩
    obtain ⟨name, rfl, hn | ⟨rfl, hcont⟩⟩ := lookupRef_eq_some hk
    · exact hc.keys hn
    · exact Or.inl hcont
  followed {r r' s text target reserved ref scope out} new leads reserves h ho := by
    have he := (extension document _).followed new leads reserves h.1 ho
    refine ⟨he, ?_⟩
    obtain ⟨-, hcl, htold⟩ := h
    rw [ho] at hcl htold
    rw [show r' = (r.reserve text (pointerName text)).2 by rw [reserves]] at hcl htold
    exact Closes.followed (lookupRef_eq_none new).1 leads hcl htold he.1
  registered {r r' s t text location target reserved scope out m found} new leads reserves h ho ha := by
    refine ⟨(extension document _).registered new leads reserves h.1 ho ha, ?_⟩
    obtain ⟨-, hcl, htold⟩ := h
    rw [ho] at hcl htold
    rw [show r' = (r.reserve text (pointerName text)).2 by rw [reserves]] at hcl htold
    refine Closes.registered (lookupRef_eq_none new).1 (fun he => ?_) hcl htold ha
    subst he
    simp [Pointer.resolve] at leads

end ApiGraph
