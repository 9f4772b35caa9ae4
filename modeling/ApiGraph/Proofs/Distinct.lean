import ApiGraph.Proofs.Links
import ApiGraph.Proofs.Pointer
import ApiGraph.Proofs.Resolve.Collection

/-! Names tell models apart. A nested model is resolved under a name that is free, and the name is
taken only afterwards; whatever takes it in between is told by the model itself or by a reference
that was followed. -/

namespace ApiGraph

open Resolving Registry

namespace Registry

/-- The registered models as links. -/
def links (r : Registry) : List (Link Model) := (Dict.values r.models).map .model

/-- A model is registered or held, or stands inside of one that is. -/
def Holds (r : Registry) (held : List (Link Model)) (m : Model) : Prop :=
  (Link.model m).Within (r.links ++ held)

variable {r s : Registry} {held more : List (Link Model)} {m k : Model} {name key : String}

theorem holds_iff : r.Holds held m ↔ r.Holds [] m ∨ (Link.model m).Within held := by
  simp [Holds, Link.within_append]

theorem holds_append : r.Holds (held ++ more) m ↔ r.Holds held m ∨ (Link.model m).Within more := by
  rw [Holds, ← List.append_assoc, Link.within_append]
  rfl

theorem Holds.sub (h : r.Holds held m) (sub : held ⊆ more) : r.Holds more m :=
  holds_iff.2 ((holds_iff.1 h).imp_right fun hw => hw.sub sub)

theorem Holds.of_lookup (h : r.models.lookup name = some m) : r.Holds held m := by
  refine .here (List.mem_append_left _ (List.mem_map_of_mem ?_))
  exact List.mem_map.2 ⟨_, Dict.mem_of_lookup h, rfl⟩

/-- After a new registration there is one more model. -/
theorem holds_enter (models : s.models = Dict.put r.models name (entitled m name))
    (absent : r.contains name = false) (inner : ∀ k, (Link.model k).Within m.inner → r.Holds held k)
    (h : s.Holds held k) : k = entitled m name ∨ r.Holds held k := by
  have hs : s.links = r.links ++ [.model (entitled m name)] := by
    rw [links, models, Dict.put_of_not_has _ _ _ (by simpa [contains] using absent)]
    simp [links, Dict.values]
  rw [Holds, hs, List.append_assoc, Link.within_append, Link.within_append, Link.within_model] at h
  obtain h | (h | h) | h := h
  · exact Or.inr (Link.within_append.2 (Or.inl h))
  · exact Or.inl (Link.model.inj h)
  · exact Or.inr (inner k h)
  · exact Or.inr (Link.within_append.2 (Or.inr h))

/-- A key with a name has its model registered under that name, unless there is one. -/
theorem register_known {space : KeySpace} (h : r.indexed space key = some name) :
    (r.register space key m).2 = r ∨
      r.contains name = false ∧ (r.register space key m).2 = (r.enrol name m).2 := by
  unfold register
  rw [h]
  dsimp only
  split
  · exact Or.inl rfl
  · next hn => exact Or.inr ⟨contains_eq_false_iff.2 hn, rfl⟩

theorem register_unknown {space : KeySpace} (h : r.indexed space key = none) :
    (r.register space key m).2 =
      (((r.claim m.name).2.index space key (r.freeName m.name)).enrol (r.freeName m.name) m).2 := by
  unfold register
  rw [h]
  rfl

end Registry

theorem prefix_antisymm {a b : String} (h₁ : a.toList <+: b.toList) (h₂ : b.toList <+: a.toList) :
    a = b :=
  String.toList_inj.1 (h₁.eq_of_length_le h₂.length_le)

theorem freeName_ne_empty {r : Registry} {wanted : String} (h : wanted ≠ "") :
    r.freeName wanted ≠ "" := by
  intro he
  have hw : wanted.toList <+: (r.freeName wanted).toList := prefix_freeVariant _ _
  rw [he] at hw
  exact h (prefix_antisymm hw List.nil_prefix)

theorem pointerName_ne_empty (text : String) : pointerName text ≠ "" := by
  unfold pointerName
  dsimp only
  split
  · next name hf =>
    intro he
    have hfree := List.find?_some hf
    have hl := congrArg String.toList he
    rw [String.toList_ofList] at hl
    rw [hl] at hfree
    cases hfree
  · decide

/-- A name that begins with the name for a reference that was followed. -/
def Pointed (document : Json) (r : Registry) (name : String) : Prop :=
  ∃ text target, r.named.lookup text ≠ none ∧ Component.Undeclared document text ∧
    Pointer.resolve document text = some target ∧ (pointerName text).toList <+: name.toList

/-- A model whose name may have been given to another one while its parts were resolved: one of its
fields holds a model and has no name that counts, or a reference that was followed has a name that
begins like it. -/
def Overtaken (document : Json) (r : Registry) (m : Model) : Prop :=
  (∃ f ∈ m.fields, f.isNameless ∧ f.type = some m.name) ∨ Pointed document r m.name

/-- Names tell models apart, but for those that were overtaken; names that are pending belong to
nobody yet. -/
structure Distinct (document : Json) (pending : String → Prop) (r : Registry)
    (held : List (Link Model)) : Prop where
  taken : ∀ {m}, r.Holds held m → m.name ∈ r.taken
  free : ∀ {m}, r.Holds held m → ¬ pending m.name
  awaited : ∀ {name}, pending name → name ∈ r.taken
  unique : ∀ {m k}, r.Holds held m → r.Holds held k → m.name = k.name →
    m = k ∨ Overtaken document r m ∨ Overtaken document r k
  keys : ∀ {key name}, r.named.lookup key = some name → key.toList.head? ≠ some '#' →
    r.contains name = true

variable {document : Json} {pending now : String → Prop} {P R : String → Prop} {r s t : Registry}
  {name : String} {links held more : List (Link Model)} {m : Model}

theorem Pointed.mono (h : Pointed document r name) (g : Grows P r s) : Pointed document s name := by
  obtain ⟨text, target, hk, h⟩ := h
  exact ⟨text, target, g.key hk, h⟩

theorem Overtaken.mono (h : Overtaken document r m) (g : Grows P r s) : Overtaken document s m :=
  h.imp_right (·.mono g)

namespace Distinct

/-- Nobody new: fewer models are held, and more names are taken. -/
theorem mono (h : Distinct document pending r held) (g : Grows P r s)
    (same : ∀ {m}, s.Holds more m → r.Holds held m)
    (narrow : ∀ {name}, now name → pending name)
    (keys : ∀ {key name}, s.named.lookup key = some name → key.toList.head? ≠ some '#' →
      s.contains name = true) : Distinct document now s more where
  taken hm := g.taken (h.taken (same hm))
  free hm hp := h.free (same hm) (narrow hp)
  awaited hp := g.taken (h.awaited (narrow hp))
  unique hm hk he := (h.unique (same hm) (same hk) he).imp_right
    fun ho => ho.imp (·.mono g) (·.mono g)
  keys := keys

theorem narrow (h : Distinct document pending r held) (hn : ∀ {name}, now name → pending name) :
    Distinct document now r held := by
  have g : Grows (fun _ => False) r r := .refl r
  exact h.mono g id hn h.keys

theorem sub (h : Distinct document pending r held) (hs : more ⊆ held) :
    Distinct document pending r more := by
  have g : Grows (fun _ => False) r r := .refl r
  exact h.mono g (·.sub hs) id h.keys

/-- There is no model under a name that is pending. -/
theorem lookup_pending (h : Distinct document pending r held) (hc : Coherent R r) (hn : pending name) :
    r.models.lookup name = none := by
  cases hm : r.models.lookup name with
  | none => rfl
  | some m => exact absurd hn (hc.name_of_model hm ▸ h.free (.of_lookup hm))

/-- One more model, whose name nobody has who was not overtaken. -/
theorem insert (h : Distinct document pending r held) (g : Grows P r s)
    (only : ∀ {k}, s.Holds more k → k = m ∨ r.Holds held k)
    (taken : m.name ∈ s.taken) (free : ¬ now m.name)
    (narrow : ∀ {name}, now name → pending name)
    (alone : ∀ {k}, r.Holds held k → k.name = m.name → Overtaken document s m)
    (keys : ∀ {key name}, s.named.lookup key = some name → key.toList.head? ≠ some '#' →
      s.contains name = true) : Distinct document now s more where
  taken hm := (only hm).elim (fun he => he ▸ taken) fun hm => g.taken (h.taken hm)
  free hm hp := (only hm).elim (fun he => free (he ▸ hp)) fun hm => h.free hm (narrow hp)
  awaited hp := g.taken (h.awaited (narrow hp))
  unique {a b} ha hb he := by
    obtain rfl | ha := only ha <;> obtain rfl | hb := only hb
    · exact Or.inl rfl
    · exact Or.inr (Or.inl (alone hb he.symm))
    · exact Or.inr (Or.inr (alone ha he))
    · exact (h.unique ha hb he).imp_right fun ho => ho.imp (·.mono g) (·.mono g)
  keys := keys

/-- A model enters the registry under a name that nobody has. -/
theorem enter (h : Distinct document pending r held) (g : Grows P r s)
    (models : s.models = Dict.put r.models name (entitled m name)) (absent : r.contains name = false)
    (inner : ∀ k, (Link.model k).Within m.inner → r.Holds held k) (taken : name ∈ s.taken)
    (free : ∀ {k}, r.Holds held k → k.name ≠ name)
    (narrow : ∀ {x}, now x → pending x ∧ x ≠ name)
    (named : ∀ {key n}, s.named.lookup key = some n → r.named.lookup key = some n ∨ n = name) :
    Distinct document now s held := by
  refine h.insert (m := entitled m name) g (holds_enter models absent inner) taken
    (fun hn => (narrow hn).2 rfl) (fun hn => (narrow hn).1) (fun hk he => absurd he (free hk))
    fun hk hh => ?_
  rw [contains_put models]
  obtain hk | rfl := named hk
  · exact Or.inr (h.keys hk hh)
  · exact Or.inl rfl

/-- A model that is registered for a new key gets a new name. -/
theorem register_unknown (h : Distinct document pending r held) (hc : Coherent R r)
    {space : KeySpace} {key : String} (hk : r.indexed space key = none)
    (inner : ∀ k, (Link.model k).Within m.inner → r.Holds held k) (g : Grows P r s)
    (hs : (r.register space key m).2 = s) : Distinct document pending s held := by
  have fresh := freeName_not_mem r m.name
  rw [Registry.register_unknown hk] at hs
  have taken : s.taken = r.freeName m.name :: r.taken := by
    rw [← hs]
    cases space <;> rfl
  have models : s.models = Dict.put r.models (r.freeName m.name) (entitled m (r.freeName m.name)) := by
    rw [← hs]
    cases space <;> rfl
  refine h.enter g models (hc.not_contains fresh) inner (taken ▸ List.mem_cons_self)
    (fun hm he => fresh (he ▸ h.taken hm)) (fun hx => ⟨hx, fun he => fresh (he ▸ h.awaited hx)⟩)
    fun hn => ?_
  rw [← hs] at hn
  cases space with
  | named => exact (lookup_put_cases hn).symm.imp_right And.right
  | structural => exact Or.inl hn

/-- A model that is registered for a key whose name is pending gets that name. -/
theorem register_pending (h : Distinct document pending r held) {key : String}
    (hk : r.named.lookup key = some name) (hp : pending name)
    (narrow : ∀ {x}, now x → pending x ∧ x ≠ name)
    (inner : ∀ k, (Link.model k).Within m.inner → r.Holds held k) (g : Grows P r s)
    (hs : (r.register .named key m).2 = s) : Distinct document now s held := by
  obtain he | ⟨absent, he⟩ := register_known (m := m) (show r.indexed .named key = some name from hk)
  · rw [he] at hs
    subst hs
    exact h.narrow fun hx => (narrow hx).1
  · rw [he] at hs
    refine h.enter g (by rw [← hs]; rfl) absent inner (by rw [← hs]; exact h.awaited hp)
      (fun hm hn => h.free hm (hn ▸ hp)) narrow fun hn => ?_
    rw [← hs] at hn
    exact Or.inl hn

/-- A name that is reserved is pending. -/
theorem reserve (h : Distinct document pending r held) {key wanted : String}
    (new : r.named.lookup key = none) (hh : key.toList.head? = some '#') :
    Distinct document (fun name => pending name ∨ name = r.freeName wanted)
      (r.reserve key wanted).2 held := by
  have fresh := freeName_not_mem r wanted
  rw [reserve_new new]
  refine ⟨fun hm => List.mem_cons_of_mem _ (h.taken hm), fun hm hp => ?_, fun hp => ?_,
    fun hm hk he => ?_, fun hk hn => ?_⟩
  · obtain hp | hp := hp
    · exact h.free hm hp
    · exact fresh (hp ▸ h.taken hm)
  · obtain hp | rfl := hp
    · exact List.mem_cons_of_mem _ (h.awaited hp)
    · exact List.mem_cons_self
  · refine (h.unique hm hk he).imp_right fun ho => ?_
    have g : Grows (fun _ => False) r (r.reserve key wanted).2 := grows_reserve new
    rw [reserve_new new] at g
    exact ho.imp (·.mono g) (·.mono g)
  · obtain ⟨rfl, -⟩ | hk := lookup_put_cases hk
    · exact absurd hh hn
    · exact h.keys hk hn

end Distinct

/-- A run keeps names apart, and the links that it leaves are held afterwards. -/
def Keeps (document : Json) (r : Registry) (links : List (Link Model)) (s : Registry) : Prop :=
  ∀ pending held, Distinct document pending r held → Distinct document pending s (held ++ links)

/-- The names that a run takes for the parts of a model: they extend the name of the model or begin
like that of a reference, or a field without a name has taken the name of the model. -/
def Takes (document : Json) (owner : Option String) (r : Registry) (fs : List Field) (s : Registry) :
    Prop :=
  ∀ n, owner = some n → ∀ x ∈ s.taken, x ∉ r.taken →
    (n.toList <+: x.toList ∧ x ≠ n) ∨ Pointed document s x ∨
      (x = n ∧ ∃ f ∈ fs, f.isNameless ∧ f.type = some n)

/-- A run that takes names for references only. -/
def Points (document : Json) (r s : Registry) : Prop :=
  ∀ x ∈ s.taken, x ∉ r.taken → Pointed document s x

namespace Keeps

theorem refl (h : ∀ k, ¬ (Link.model k).Within links) : Keeps document r links r := by
  intro pending held hd
  have g : Grows (fun _ => False) r r := .refl r
  exact hd.mono g (fun hm => (holds_append.1 hm).resolve_right (h _)) id hd.keys

theorem append (h₁ : Keeps document r links s) (h₂ : Keeps document s more t) :
    Keeps document r (links ++ more) t := by
  intro pending held hd
  rw [← List.append_assoc]
  exact h₂ _ _ (h₁ _ _ hd)

theorem sub (h : Keeps document r links s) (hs : more ⊆ links) : Keeps document r more s :=
  fun pending held hd => (h pending held hd).sub (List.append_subset.2
    ⟨List.subset_append_left _ _, List.subset_append_of_subset_right _ hs⟩)

theorem ref {ref : Ref} (h : Keeps document r [] s) : Keeps document r [.ref ref] s :=
  h.append (.refl fun k hk => by cases Link.within_ref.1 hk)

end Keeps

namespace Takes

variable {owner : Option String} {fs gs : List Field}

theorem refl : Takes document owner r fs r := fun _ _ _ hx hn => absurd hx hn

theorem of_points (h : Points document r s) : Takes document owner r fs s :=
  fun _ _ x hx hn => Or.inr (Or.inl (h x hx hn))

theorem append (h₁ : Takes document owner r fs s) (h₂ : Takes document owner s gs t)
    (g : Grows P s t) : Takes document owner r (fs ++ gs) t := by
  intro n ho x hx hn
  by_cases hs : x ∈ s.taken
  · refine (h₁ n ho x hs hn).imp_right (Or.imp (·.mono g) ?_)
    rintro ⟨he, f, hf, hw⟩
    exact ⟨he, f, List.mem_append_left _ hf, hw⟩
  · refine (h₂ n ho x hx hs).imp_right (Or.imp_right ?_)
    rintro ⟨he, f, hf, hw⟩
    exact ⟨he, f, List.mem_append_right _ hf, hw⟩

theorem sup (h : Takes document owner r fs s) (hf : fs ⊆ gs) : Takes document owner r gs s := by
  intro n ho x hx hn
  refine (h n ho x hx hn).imp_right (Or.imp_right ?_)
  rintro ⟨he, f, hm, hw⟩
  exact ⟨he, f, hf hm, hw⟩

/-- Each name that is taken for a model begins like the name of the model, or like that of a
reference. -/
theorem prefix_or {n x : String} (h : Takes document (some n) r fs s) (hx : x ∈ s.taken)
    (hn : x ∉ r.taken) : n.toList <+: x.toList ∨ Pointed document s x := by
  obtain ⟨hp, -⟩ | hp | ⟨rfl, -⟩ := h n rfl x hx hn
  · exact Or.inl hp
  · exact Or.inr hp
  · exact Or.inl (List.prefix_refl _)

/-- What is taken for a model under another name is taken for the owner of that name. -/
theorem under {n : String} (h : Takes document (some n) r gs s) (he : Extending owner n) :
    Takes document owner r fs s := by
  intro o ho x hx hn
  obtain ⟨ha, hne⟩ := he o ho
  have hp := ha.isPrefix
  obtain hnx | hp' := h.prefix_or hx hn
  · exact Or.inl ⟨hp.trans hnx, fun hxo => hne (prefix_antisymm (hxo ▸ hnx) hp)⟩
  · exact Or.inr (Or.inl hp')

end Takes

theorem Points.refl : Points document r r := fun _ hx hn => absurd hx hn

theorem Points.trans (h₁ : Points document r s) (h₂ : Points document s t) (g : Grows P s t) :
    Points document r t := by
  intro x hx hn
  by_cases hs : x ∈ s.taken
  · exact (h₁ x hs hn).mono g
  · exact h₂ x hx hs

/-- A node is resolved into a model with the name of its site, if that has one, and takes names for
that model; a node that is resolved into a handle takes names for references only. -/
def Named (document : Json) (site : Site) (r : Registry) (s : Registry) : Link Model → Prop
  | .ref _ => Points document r s
  | .model m => (site.name ≠ "" → m.name = site.name) ∧ Takes document (some m.name) r m.fields s

/-- The registration of what was resolved from a node under an extended name. -/
theorem Named.under {site : Site} {owner : Option String} {fs : List Field} {link : Link Model}
    (h : Named document site r s link) (he : Extending owner site.name) :
    Takes document owner r fs s := by
  cases link with
  | ref _ => exact .of_points h
  | model m =>
    intro o ho
    have hne : site.name ≠ "" := fun hs => by
      obtain ⟨ha, hne⟩ := he o ho
      have hp := ha.isPrefix
      rw [hs] at hp hne
      exact hne (prefix_antisymm (List.nil_prefix) hp)
    exact h.2.under (h.1 hne ▸ he) o ho

/-- A member is held under the free name that it was resolved under, which is taken only now. Who
has taken it in between tells that the member was overtaken. -/
theorem Keeps.member {f : String} {needs : List (Link Model)} (fresh : f ∉ r.taken) (hm : m.name = f)
    (h : Keeps document r (m.inner ++ needs) s) (ht : Takes document (some m.name) r m.fields s) :
    Keeps document r (.model m :: needs) (s.claimed (.model m)) := by
  intro pending held hd
  have hs := h pending held hd
  have g : Grows (fun _ => False) s (s.claimed (.model m)) :=
    ⟨List.prefix_refl _, List.subset_cons_self _ _, id, fun _ => id, id⟩
  refine hs.insert (m := m) g (fun {k} hk => ?_) ?_ (fun hp => fresh (hm ▸ hd.awaited hp)) id
    (fun {k} hk he => ?_) fun hk hh => hs.keys hk hh
  · have hk : s.Holds (held ++ .model m :: needs) k := hk
    rw [holds_append, Link.within_cons, Link.within_model] at hk
    rw [holds_append, Link.within_append]
    obtain hk | (hk | hk) | hk := hk
    · exact Or.inr (Or.inl hk)
    · exact Or.inl (Link.model.inj hk)
    · exact Or.inr (Or.inr (Or.inl hk))
    · exact Or.inr (Or.inr (Or.inr hk))
  · by_cases hn : m.name ∈ s.taken
    · exact List.mem_cons_of_mem _ hn
    · have : s.freeName m.name = m.name := freeVariant_of_not_mem hn
      exact List.mem_cons.2 (Or.inl this.symm)
  · obtain ⟨-, hne⟩ | hp | ⟨-, hf⟩ := ht m.name rfl m.name (he ▸ hs.taken hk) (hm ▸ fresh)
    · exact absurd rfl hne
    · exact Or.inr (hp.mono g)
    · exact Or.inl hf

/-- The names that are taken for a member, its own name included, are taken for the owner. -/
theorem Takes.member {name wanted : String} {fs : List Field} (hm : m.name = r.freeName wanted)
    (under : name.toList <+: wanted.toList)
    (nameless : wanted = name → ∃ f ∈ fs, f.isNameless ∧ f.type = some m.name)
    (h : Takes document (some m.name) r m.fields s) :
    Takes document (some name) r fs (s.claimed (.model m)) := by
  intro n ho x hx hn
  obtain rfl := Option.some.inj ho
  have hw : wanted.toList <+: m.name.toList := hm ▸ prefix_freeVariant _ _
  have key : m.name.toList <+: x.toList ∨ Pointed document s x := by
    rcases List.mem_cons.1 hx with rfl | hx
    · exact Or.inl (prefix_freeVariant _ _)
    · exact h.prefix_or hx hn
  obtain hp | ⟨text, target, hp⟩ := key
  · by_cases he : x = name
    · subst he
      obtain rfl := prefix_antisymm under (hw.trans hp)
      have hx : m.name = x := prefix_antisymm hp hw
      exact Or.inr (Or.inr ⟨rfl, hx ▸ nameless rfl⟩)
    · exact Or.inl ⟨(under.trans hw).trans hp, he⟩
  · exact Or.inr (Or.inl ⟨text, target, hp⟩)

/-- What is registered for the content of a node gets a name of its own. -/
theorem Keeps.content {link : Link Model} {needs : List (Link Model)} {v : Json}
    {found : Resolved} {location : String} (h : Keeps document r (link.inner ++ needs) s)
    (hs : s.Sound R) (ha : s.assert v link none .structural location = .ok (found, t)) :
    Keeps document r [.ref found.ref] t := by
  refine Keeps.ref fun pending held hd => ?_
  have hl := h pending held hd
  have g := (extends_assert ha hs).2
  have hkept : Distinct document pending t (held ++ (link.inner ++ needs)) := by
    obtain rfl | ⟨m, rfl, hm⟩ := assert_cases ha
    · exact hl
    cases hi : s.indexed .structural (keyFor .structural v m none) with
    | none =>
      refine hl.register_unknown hs.1 hi (fun k hk => ?_) g (by rw [hm])
      exact holds_append.2 (Or.inr (Link.within_append.2 (Or.inl hk)))
    | some name =>
      obtain he | ⟨absent, -⟩ := register_known (m := m) hi
      · rw [hm] at he
        obtain rfl : t = s := he
        exact hl
      · rw [hs.1.model_of_content hi] at absent
        cases absent
  exact hkept.sub (by simp)

/-- A reference that was followed to a handle. -/
theorem Keeps.followed {text : String} {result : Registry} (new : r.named.lookup text = none)
    (hh : text.toList.head? = some '#')
    (h : Keeps document (r.reserve text (pointerName text)).2 links s)
    (same : result = s ∨ ∃ name, result = s.redirect text name) : Keeps document r [] result := by
  intro pending held hd
  have hs := ((h _ _ (hd.reserve new hh)).sub (List.subset_append_left held links)).narrow
    (fun hp => Or.inl hp : ∀ {name}, pending name → _)
  rw [List.append_nil]
  obtain rfl | ⟨name, rfl⟩ := same
  · exact hs
  · refine hs.mono (grows_redirect s text name) id id fun hk hn => ?_
    obtain ⟨rfl, -⟩ | hk := lookup_put_cases hk
    · exact absurd hh hn
    · exact hs.keys hk hn

/-- A reference that was followed to a model, which gets the reserved name. -/
theorem Keeps.registered {text location : String} {target : Json} {needs : List (Link Model)}
    {found : Resolved} (new : r.named.lookup text = none) (hh : text.toList.head? = some '#')
    (hr : (r.reserve text (pointerName text)).2.Sound R)
    (x : (r.reserve text (pointerName text)).2.Extends R s)
    (h : Keeps document (r.reserve text (pointerName text)).2 (m.inner ++ needs) s)
    (ha : s.assert target (.model m) (some text) .named location = .ok (found, t)) :
    Keeps document r [] t := by
  intro pending held hd
  have hs := h _ _ (hd.reserve new hh)
  obtain ⟨sound, grown⟩ := x hr
  have narrow {x : String} (hx : pending x) :
      (pending x ∨ x = r.freeName (pointerName text)) ∧ x ≠ r.freeName (pointerName text) :=
    ⟨Or.inl hx, fun he => freeName_not_mem r (pointerName text) (he ▸ hd.awaited hx)⟩
  have hnamed : s.named.lookup text = some (r.freeName (pointerName text)) := by
    have g : Grows (fun _ => False) _ s := grown.of_new
    exact g.name id (by simp [reserve_new new])
  have hne : text.isEmpty = false := by
    cases hte : text.isEmpty with
    | false => rfl
    | true =>
      rw [String.isEmpty_iff.1 hte] at hh
      cases hh
  rw [List.append_nil]
  obtain rfl | ⟨k, he, hk⟩ := assert_cases ha
  · exact (hs.narrow fun hx => (narrow hx).1).sub (List.subset_append_left _ _)
  obtain rfl := Link.model.inj he
  rw [show keyFor .named target m (some text) = text by simp [keyFor, hne]] at hk
  refine (hs.register_pending hnamed (Or.inr rfl) narrow (fun k hw => ?_) (extends_assert ha sound).2
    (by rw [hk])).sub (List.subset_append_left _ _)
  exact holds_append.2 (Or.inr (Link.within_append.2 (Or.inl hw)))

/-- What is taken while a reference is followed begins like the name for the reference. -/
theorem Points.followed {text : String} {target : Json} {link : Link Model} {scope : Scope}
    (new : r.named.lookup text = none) (hr : r.Sound (Component.Undeclared document))
    (leads : Pointer.resolve document text = some target)
    (h : Named document (.ofOwner scope (r.freeName (pointerName text)))
      (r.reserve text (pointerName text)).2 s link)
    (g : Grows P (r.reserve text (pointerName text)).2 s) : Points document r s := by
  have pointed {x : String} (hp : (pointerName text).toList <+: x.toList) : Pointed document s x :=
    ⟨text, target, g.key (by simp [reserve_new new]), hr.2 _ new, leads, hp⟩
  have hname : (pointerName text).toList <+: (r.freeName (pointerName text)).toList :=
    prefix_freeVariant _ _
  have reserved : Points document r (r.reserve text (pointerName text)).2 := by
    intro x hx hn
    rw [reserve_new new] at hx
    rcases List.mem_cons.1 hx with rfl | hx
    · exact ⟨text, target, by simp [reserve_new new], hr.2 _ new, leads, hname⟩
    · exact absurd hx hn
  refine reserved.trans ?_ g
  cases link with
  | ref _ => exact h
  | model m =>
    intro x hx hn
    obtain hp | hp := h.2.prefix_or hx hn
    · rw [h.1 (freeName_ne_empty (pointerName_ne_empty text))] at hp
      exact pointed (hname.trans hp)
    · exact hp

/-- A model that holds the parameters of an operation embeds nothing that was not there. -/
theorem Keeps.gathered {location : String} {refs : List Ref} {ms : List Model} {found : Resolved}
    (hs : r.Sound R) (models : Parameter.Gathered r location refs ms)
    (dependencies : m.dependencies = ms.flatMap Model.dependencies) (branches : m.branches = [])
    (name : m.name.toList.head? ≠ some '#') (nonempty : m.name ≠ "")
    (ha : r.assert .null (.model m) (some m.name) .named location = .ok (found, t)) :
    Keeps document r [.ref found.ref] t := by
  refine Keeps.ref fun pending held hd => ?_
  rw [List.append_nil]
  have hm := assert_model (by rfl) ha
  rw [show keyFor .named .null m (some m.name) = m.name by simp [keyFor, nonempty]] at hm
  cases hi : r.indexed .named m.name with
  | none =>
    refine hd.register_unknown hs.1 hi (fun k hk => ?_) (extends_assert ha hs).2 (by rw [hm])
    rw [Model.inner, branches, List.append_nil, dependencies, Link.within_flatMap] at hk
    obtain ⟨part, hpart, hk⟩ := hk
    obtain ⟨known, hl⟩ := gathered_registered models part hpart
    have holds : r.Holds held part := .of_lookup hl
    exact Link.Within.trans holds (hk.sub (List.subset_append_left _ _))
  | some known =>
    obtain he | ⟨absent, -⟩ := register_known (m := m) hi
    · rw [hm] at he
      obtain rfl : t = r := he
      exact hd
    · rw [hd.keys hi name] at absent
      cases absent

theorem isSettled_ofOwner (scope : Scope) {wanted : String} {v : Json} (h : wanted ≠ "") :
    (Site.ofOwner scope (r.freeName wanted)).IsSettled v s :=
  fun he => absurd he (freeName_ne_empty h)

/-- A site with a free name whose owner has a name, or whose owner's empty name is taken. -/
theorem isSettled_freeName {name wanted : String} {v : Json} (scope : Scope)
    (required : List String) (under : name.toList <+: wanted.toList)
    (settled : some name = some "" → "" ∈ r.taken) : r.freeName wanted ≠ "" ∧
      (Site.mk scope (r.freeName wanted) required false none).IsSettled v r := by
  have hne : r.freeName wanted ≠ "" := by
    intro he
    have hw : wanted.toList <+: (r.freeName wanted).toList := prefix_freeVariant _ _
    rw [he] at hw
    obtain rfl := prefix_antisymm (under.trans hw) List.nil_prefix
    exact absurd (settled rfl) (he ▸ freeName_not_mem r wanted)
  exact ⟨hne, fun he => absurd he hne⟩

theorem reserved_eq {r' : Registry} {text wanted : String} {reserved : Ref}
    (new : r.named.lookup text = none) (h : r.reserve text wanted = (reserved, r')) :
    reserved = .named (r.freeName wanted) ∧ r' = (r.reserve text wanted).2 := by
  rw [h]
  rw [reserve_new new] at h
  exact ⟨(Prod.mk.inj h).1.symm, rfl⟩

/-- A registration takes no name but one that begins like that of the model. -/
theorem taken_assert {link : Link Model} {raw : Json} {hint : Option String} {space : KeySpace}
    {location x : String} {found : Resolved} (hs : r.Sound R)
    (ha : r.assert raw link hint space location = .ok (found, s)) (hx : x ∈ s.taken) :
    x ∈ r.taken ∨ ∃ m, link = .model m ∧ m.name.toList <+: x.toList := by
  obtain rfl | ⟨m, rfl, hm⟩ := assert_cases ha
  · exact Or.inl hx
  have hc := register_cases hs.1 space (keyFor space raw m hint) m
  rw [hm] at hc
  obtain rfl | ⟨name, -, -, -, ⟨-, ht⟩ | ⟨rfl, ht⟩⟩ := hc
  · exact Or.inl hx
  · exact Or.inl (ht ▸ hx)
  · rw [show s.taken = _ from ht] at hx
    rcases List.mem_cons.1 hx with rfl | hx
    · exact Or.inr ⟨m, rfl, prefix_freeVariant _ _⟩
    · exact Or.inl hx

/-- The registration of what was resolved under an extended name takes an extended name. -/
theorem Named.content {site : Site} {owner : Option String} {fs : List Field} {link : Link Model}
    {v : Json} {found : Resolved} {location : String} (h : Named document site r s link)
    (hs : s.Sound R) (ha : s.assert v link none .structural location = .ok (found, t))
    (under : Extending owner site.name) : Takes document owner r fs t := by
  intro n ho x hx hn
  obtain hxs | ⟨m, rfl, hm⟩ := taken_assert hs ha hx
  · have ht : Takes document owner r fs s := h.under under
    exact (ht n ho x hxs hn).imp_right (Or.imp_left (·.mono (extends_assert ha hs).2))
  · obtain ⟨ha, hne⟩ := under n ho
    have hp := ha.isPrefix
    have hsn : site.name ≠ "" := fun he => by
      rw [he] at hp hne
      exact hne (prefix_antisymm List.nil_prefix hp)
    rw [h.1 hsn] at hm
    exact Or.inl ⟨hp.trans hm, fun he => hne (prefix_antisymm (he ▸ hm) hp)⟩

/-- The resolution of nodes keeps names apart. -/
def distinction (document : Json) : Traversal document where
  node site v r out s := (extension document (Component.Undeclared document)).node site v r out s ∧
    (r.Sound (Component.Undeclared document) → site.IsSettled v r →
      Keeps document r (out.result.inner ++ out.needs) s ∧ Named document site r s out.result)
  parts owner r links fs s := r.Extends (Component.Undeclared document) s ∧
    (r.Sound (Component.Undeclared document) → (owner = some "" → "" ∈ r.taken) →
      Keeps document r links s ∧ Takes document owner r fs s)
  handle r text ref s :=
    (extension document (Component.Undeclared document)).handle r text ref s ∧
    (r.Sound (Component.Undeclared document) → Keeps document r [] s ∧ Points document r s)
  nothing := ⟨.refl _, fun _ _ => ⟨.refl fun _ => Link.not_within_nil, .refl⟩⟩
  append first rest := by
    refine ⟨first.1.trans rest.1, fun hr ho => ?_⟩
    obtain ⟨hs, g⟩ := first.1 hr
    obtain ⟨hk, ht⟩ := first.2 hr ho
    obtain ⟨hk', ht'⟩ := rest.2 hs fun he => g.taken (ho he)
    exact ⟨hk.append hk', ht.append ht' (rest.1 hs).2⟩
  weaken whole sub sup :=
    ⟨whole.1, fun hr ho => ⟨(whole.2 hr ho).1.sub sub, (whole.2 hr ho).2.sup sup⟩⟩
  member {name wanted scope required v r s out fs} under nameless resolved := by
    refine ⟨resolved.1.1.trans (extends_claimed _ _), fun hr ho => ?_⟩
    obtain ⟨hne, settled⟩ := isSettled_freeName scope required under.isPrefix ho
    obtain ⟨hk, hn⟩ := resolved.2 hr settled
    obtain ⟨link, needs⟩ := out
    cases link with
    | ref ref => exact ⟨hk, .of_points hn⟩
    | model m =>
      have hm : m.name = r.freeName wanted := hn.1 hne
      exact ⟨.member (freeName_not_mem r wanted) hm hk hn.2, .member hm under.isPrefix nameless hn.2⟩
  item {name wanted scope v r s out fs} under resolved := by
    refine ⟨resolved.1.1, fun hr ho => ?_⟩
    obtain ⟨ha, hnw⟩ := under name rfl
    have hu := ha.isPrefix
    obtain ⟨hne, settled⟩ := isSettled_freeName scope [] hu ho
    obtain ⟨hk, hn⟩ := resolved.2 hr settled
    refine ⟨hk.sub (List.subset_append_right _ _), hn.under fun n he => ?_⟩
    obtain rfl := Option.some.inj he
    have hw : wanted.toList <+: (r.freeName wanted).toList := prefix_freeVariant _ _
    exact ⟨ha.trans (appends_freeVariant _ _), fun hf => hnw (prefix_antisymm (hf ▸ hw) hu)⟩
  reference resolved :=
    ⟨resolved.1.1, fun hr _ => ⟨(resolved.2 hr).1.ref, .of_points (resolved.2 hr).2⟩⟩
  inner under _ settled resolved := by
    refine ⟨resolved.1.1, fun hr _ => ?_⟩
    obtain ⟨hk, hn⟩ := resolved.2 hr settled
    exact ⟨hk.sub (List.subset_append_left _ _), hn.under under⟩
  content {owner site v r s t out found location fs} under _ _ settled _ resolved ha := by
    refine ⟨resolved.1.1.trans (extends_assert ha), fun hr _ => ?_⟩
    obtain ⟨hk, hn⟩ := resolved.2 hr settled
    have hs := (resolved.1.1 hr).1
    exact ⟨hk.content hs ha, hn.content hs ha under⟩
  gathered models dependencies branches _ _ identifier ha := by
    refine ⟨extends_assert ha, fun hr _ => ⟨.gathered hr models dependencies branches
      (identifier.head_ne (by decide)) identifier.1 ha, nofun⟩⟩
  model {site v r s m links needs} resolved _ _ _ titled unnamed dependencies branches passed _ _ _ := by
    refine ⟨⟨resolved.1, nofun⟩, fun hr settled => ?_⟩
    have ho : some m.name = some "" → "" ∈ r.taken := by
      intro he
      have hm := Option.some.inj he
      have hs : site.name = "" := by
        by_contra hs
        exact hs (titled.eq hs ▸ hm)
      exact (settled hs).resolve_right fun hf => hf (unnamed hm)
    obtain ⟨hk, ht⟩ := resolved.2 hr ho
    exact ⟨hk.sub (List.append_subset.2 ⟨List.append_subset.2 ⟨dependencies, branches⟩, passed⟩),
      titled.eq, ht⟩
  refers spells resolved :=
    ⟨(extension _ _).refers spells resolved.1, fun hr _ =>
      ⟨by simpa [Link.inner] using (resolved.2 hr).1.ref, (resolved.2 hr).2⟩⟩
  known object plain hf := ⟨(extension _ _).known object plain hf, fun _ _ =>
    ⟨.refl fun k hk => by simp [Link.inner] at hk, .refl⟩⟩
  remote h := ⟨(extension _ _).remote h, fun _ => ⟨.refl fun _ => Link.not_within_nil, .refl⟩⟩
  declared inside hk :=
    ⟨(extension _ _).declared inside hk, fun _ => ⟨.refl fun _ => Link.not_within_nil, .refl⟩⟩
  followed {r r' s text target reserved ref scope out} new leads reserves h ho := by
    refine ⟨(extension document _).followed new leads reserves h.1 ho, fun hr => ?_⟩
    have new := (lookupRef_eq_none new).1
    obtain ⟨rfl, rfl⟩ := reserved_eq new reserves
    have x := (extends_reserve r text (pointerName text) hr).1
    obtain ⟨hk, hn⟩ := h.2 x (isSettled_ofOwner scope (pointerName_ne_empty text))
    have points := Points.followed new hr leads hn (h.1.1 x).2
    rw [ho] at hk
    split
    · exact ⟨hk.followed new (Pointer.head_of_resolve leads) (Or.inl rfl), points⟩
    · refine ⟨hk.followed new (Pointer.head_of_resolve leads) (Or.inr ⟨_, rfl⟩), ?_⟩
      exact points.trans (fun _ hx hnx => absurd hx hnx) (grows_redirect s text ref.name)
  registered {r r' s t text location target reserved scope out m found} new leads reserves h ho ha := by
    refine ⟨(extension document _).registered new leads reserves h.1 ho ha, fun hr => ?_⟩
    have new := (lookupRef_eq_none new).1
    obtain ⟨rfl, rfl⟩ := reserved_eq new reserves
    have x := (extends_reserve r text (pointerName text) hr).1
    obtain ⟨hk, hn⟩ := h.2 x (isSettled_ofOwner scope (pointerName_ne_empty text))
    have hs := (h.1.1 x).1
    have points := Points.followed new hr leads hn (h.1.1 x).2
    rw [ho] at hk hn
    refine ⟨hk.registered new (Pointer.head_of_resolve leads) x h.1.1 ha,
      points.trans (fun y hy hny => ?_) (extends_assert ha hs).2⟩
    obtain hy | ⟨k, he, hp⟩ := taken_assert hs ha hy
    · exact absurd hy hny
    obtain rfl := Link.model.inj he
    rw [hn.1 (freeName_ne_empty (pointerName_ne_empty text))] at hp
    have known : s.named.lookup text ≠ none := (h.1.1 x).2.key (by simp [reserve_new new])
    exact ⟨text, target, (extends_assert ha hs).2.key known, hr.2 _ new, leads,
      (prefix_freeVariant _ _).trans hp⟩

end ApiGraph
