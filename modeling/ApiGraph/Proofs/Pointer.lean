import ApiGraph.Json.Shape
import ApiGraph.Pointer
import ApiGraph.Proofs.Json.Number
import ApiGraph.Resolve.Component

/-! Paths through a document and the references that spell them. A reference is cut into the keys
that the path goes through, whatever characters these have, and it leads to where the path leads;
the references to components are among those that paths spell. -/

namespace ApiGraph

open Text
open Shape (Step)

/-- The first piece ends where the separator first occurs. -/
theorem Text.split_append {sep : Char} (piece rest : List Char) (absent : sep ∉ piece) :
    split sep (piece ++ sep :: rest) = piece :: split sep rest := by
  induction piece with
  | nil =>
    obtain ⟨next, more, hs⟩ := List.exists_cons_of_ne_nil (split_ne_nil sep rest)
    simp [split, hs]
  | cons c piece ih =>
    have hc : c ≠ sep := fun h => absent (by simp [h])
    simp [split, ih fun h => absent (List.mem_cons_of_mem _ h), hc]

theorem Text.split_of_not_mem {sep : Char} {piece : List Char} (absent : sep ∉ piece) :
    split sep piece = [piece] := by
  induction piece with
  | nil => rfl
  | cons c piece ih =>
    have hc : c ≠ sep := fun h => absent (by simp [h])
    simp [split, ih fun h => absent (List.mem_cons_of_mem _ h), hc]

/-- Pieces without the separator are found again behind one separator each. -/
theorem Text.split_flatMap {sep : Char} {piece : List Char} {pieces : List (List Char)}
    (absent : ∀ p ∈ piece :: pieces, sep ∉ p) :
    split sep (piece ++ pieces.flatMap (sep :: ·)) = piece :: pieces := by
  induction pieces generalizing piece with
  | nil => rw [List.flatMap_nil, List.append_nil, split_of_not_mem (absent _ List.mem_cons_self)]
  | cons next pieces ih =>
    obtain ⟨here, rest⟩ := List.forall_mem_cons.1 absent
    rw [List.flatMap_cons, List.cons_append, split_append _ _ here, ih rest]

/-- Characters that are kept at both ends are all kept. -/
theorem Text.trimBy_of_forall {p : Char → Bool} {cs : List Char} (keep : ∀ c ∈ cs, p c = false) :
    trimBy p cs = cs := by
  have dropWhile {ds : List Char} (keep : ∀ c ∈ ds, p c = false) : ds.dropWhile p = ds := by
    cases ds with
    | nil => rfl
    | cons d ds => exact List.dropWhile_cons_of_neg (by simp [keep d List.mem_cons_self])
  rw [trimBy, dropWhile keep, dropWhile fun c hc => keep c (List.mem_reverse.1 hc),
    List.reverse_reverse]

namespace Integer

variable {cs : List Char} {c : Char}

theorem toNat_of_isDigit (digit : c.isDigit = true) : 48 ≤ c.toNat ∧ c.toNat ≤ 57 := by
  simpa [Char.isDigit, UInt32.le_iff_toNat_le] using digit

theorem not_isMargin_of_isDigit (digit : c.isDigit = true) : isMargin c = false := by
  obtain ⟨low, high⟩ := toNat_of_isDigit digit
  simp [isMargin, isBlank, blankRanges]
  omega

/-- The digits of ASCII have the values that they always have. -/
theorem digitIn?_of_isDigit (digit : c.isDigit = true) : digitIn? 10 c = some (c.toNat - 48) := by
  obtain ⟨low, high⟩ := toNat_of_isDigit digit
  have value : decimalValue? c = some (c.toNat - 48) := by
    simp [decimalValue?, zeros, low, show c.toNat < 58 by omega]
  simp [digitIn?, digitValue?, value]
  omega

theorem digitsValue?_eq (digits : ∀ c ∈ cs, c.isDigit = true) (acc : Nat) :
    digitsValue? 10 acc cs = some (Nat.ofDigitChars 10 cs acc) := by
  induction cs generalizing acc with
  | nil => rfl
  | cons c cs ih =>
    obtain ⟨here, rest⟩ := List.forall_mem_cons.1 digits
    have plain : c ≠ '_' := by
      rintro rfl
      cases here
    rw [digitsValue?, digitIn?_of_isDigit here, Nat.ofDigitChars_cons]
    · exact (ih rest _).trans (by rw [Nat.mul_comm]; rfl)
    all_goals grind

theorem isDigit_of_mem_toDigits {n : Nat} : ∀ c ∈ Nat.toDigits 10 n, c.isDigit = true :=
  fun _ => Json.isDigit_toDigits

theorem toDigits_ne_cons {n : Nat} (h : c.isDigit = false) (ds : List Char) :
    Nat.toDigits 10 n ≠ c :: ds := fun hd => by
  rw [isDigit_of_mem_toDigits c (hd ▸ List.mem_cons_self)] at h
  cases h

theorem unsigned?_toDigits (n : Nat) :
    unsigned? 10 (Nat.toDigits 10 n) =
      if maxDigits < (Nat.toDigits 10 n).length then none else some n := by
  have unmarked : dropMark 10 (Nat.toDigits 10 n) = Nat.toDigits 10 n := by
    unfold dropMark
    split
    · next hd =>
      rw [hd]
      rfl
    · rfl
  have plain : (Nat.toDigits 10 n).filter (· ≠ '_') = Nat.toDigits 10 n :=
    List.filter_eq_self.2 fun c hc => by
      have digit := isDigit_of_mem_toDigits c hc
      have other : c ≠ '_' := by
        rintro rfl
        cases digit
      simpa using other
  unfold unsigned?
  rw [unmarked]
  split
  · next hd => exact absurd hd Nat.toDigits_ne_nil
  · next hd => exact absurd hd (toDigits_ne_cons rfl _)
  · rw [plain, digitsValue?_eq isDigit_of_mem_toDigits, Nat.ofDigitChars_ten_toDigits]
    simp

theorem ofText?_toDigits_eq (n : Nat) :
    ofText? 10 (Nat.toDigits 10 n) =
      if maxDigits < (Nat.toDigits 10 n).length then none else some (n : Int) := by
  unfold ofText?
  rw [trimBy_of_forall fun c hc => not_isMargin_of_isDigit (isDigit_of_mem_toDigits c hc)]
  split
  · next hd => exact absurd hd (toDigits_ne_cons rfl _)
  · next hd => exact absurd hd (toDigits_ne_cons rfl _)
  · rw [unsigned?_toDigits]
    split <;> rfl

/-- A natural number is read back from its decimal digits, unless there are too many of them. -/
theorem ofText?_toDigits {n : Nat} (short : (Nat.toDigits 10 n).length ≤ maxDigits) :
    ofText? 10 (Nat.toDigits 10 n) = some n := by
  rw [ofText?_toDigits_eq, if_neg (Nat.not_lt.2 short)]
  rfl

/-- Decimal digits are read as no other number. -/
theorem eq_of_ofText?_toDigits {n : Nat} {i : Int} (h : ofText? 10 (Nat.toDigits 10 n) = some i) :
    i = n := by
  rw [ofText?_toDigits_eq] at h
  split at h
  · cases h
  · exact (Option.some.inj h).symm

end Integer

/-- What a step is called: a key as it is, the position of an item in decimal. -/
def Shape.Step.chars : Step → List Char
  | .key name => name.toList
  | .item i => Nat.toDigits 10 i

/-- The part of a value that a step leads to. -/
def Json.part? : Json → Step → Option Json
  | .obj entries, .key name => entries.lookup name
  | .arr items, .item i => items[i]?
  | _, _ => none

@[simp] theorem Json.part?_key (v : Json) (name : String) : v.part? (.key name) = v.get? name := by
  cases v <;> rfl

/-- What has a key is no null, so that it is there itself. -/
theorem Json.get?_of_get_get? {v w : Json} {key name : String} (h : (v.get key).get? name = some w) :
    v.get? key = some (v.get key) := by
  cases hk : v.get? key with
  | some x => rw [Json.get, hk, Option.getD_some]
  | none =>
    rw [Json.get, hk] at h
    cases h

/-- The value that a path leads to. -/
def Json.at? (v : Json) (path : List Step) : Option Json := path.foldlM Json.part? v

namespace Pointer

variable {document v w : Json} {path : List Step} {s : Step} {cs ds : List Char}

/-- The reference that spells a path. -/
def ofPath (path : List Step) : String :=
  String.ofList ('#' :: (path.map fun s => escape s.chars).flatMap ('/' :: ·))

theorem escape_injective (h : escape cs = escape ds) : cs = ds := by
  rw [← unescape_escape cs, h, unescape_escape]

theorem slash_not_mem_escape (cs : List Char) : '/' ∉ escape cs := by
  induction cs with
  | nil => exact List.not_mem_nil
  | cons c cs ih =>
    unfold escape
    split
    · simp [ih]
    · split
      · simp [ih]
      · next hs => simp [ih, Ne.symm hs]

theorem escape_eq_nil : escape cs = [] ↔ cs = [] := by
  refine ⟨fun h => escape_injective (h : escape cs = escape []), ?_⟩
  rintro rfl
  rfl

theorem escape_of_plain (plain : ∀ c ∈ cs, c ≠ '~' ∧ c ≠ '/') : escape cs = cs := by
  induction cs with
  | nil => rfl
  | cons c cs ih =>
    obtain ⟨⟨tilde, slash⟩, rest⟩ := List.forall_mem_cons.1 plain
    rw [escape, if_neg tilde, if_neg slash, ih rest]

/-- Puts a character in the place of each tilde with a mark behind it. -/
def replaceMark (mark c : Char) : List Char → List Char
  | '~' :: d :: rest =>
    if d = mark then c :: replaceMark mark c rest else '~' :: replaceMark mark c (d :: rest)
  | d :: rest => d :: replaceMark mark c rest
  | [] => []

theorem replaceMark_cons {mark c d : Char} {cs : List Char}
    (plain : d ≠ '~' ∨ ∀ rest, cs ≠ mark :: rest) :
    replaceMark mark c (d :: cs) = d :: replaceMark mark c cs := by
  by_cases tilde : d = '~'
  · have kept := plain.resolve_left (not_not_intro tilde)
    cases cs with
    | nil => simp [replaceMark]
    | cons e cs =>
      have other : e ≠ mark := fun h => kept cs (by rw [h])
      simp [replaceMark, tilde, other]
  · cases cs <;> simp [replaceMark, tilde]

/-- A replacement puts nothing but its own character in front. -/
theorem replaceMark_ne_cons {mark c d : Char} {cs : List Char} (new : c ≠ d)
    (h : ∀ rest, cs ≠ d :: rest) (rest : List Char) : replaceMark mark c cs ≠ d :: rest := by
  fun_cases replaceMark mark c cs <;> grind

/-- Slashes are put back in the whole text before tildes are. The other way around a tilde that
was put back could be taken for the mark of a slash. -/
theorem unescape_eq_replaceMark (cs : List Char) :
    unescape cs = replaceMark '0' '~' (replaceMark '1' '/' cs) := by
  fun_induction unescape cs with
  | case1 => rfl
  | case2 rest ih => rw [replaceMark, if_pos rfl, replaceMark_cons (.inl (by decide)), ih]
  | case3 rest ih =>
    have zero : replaceMark '1' '/' ('0' :: rest) = '0' :: replaceMark '1' '/' rest :=
      replaceMark_cons (.inl (by decide))
    rw [replaceMark_cons (.inr (by simp)), zero, replaceMark, if_pos rfl, ih]
  | case4 c rest slash tilde ih =>
    have kept : c ≠ '~' ∨ (∀ more, rest ≠ '1' :: more) ∧ ∀ more, rest ≠ '0' :: more := by grind
    rw [replaceMark_cons (kept.imp id And.left),
      replaceMark_cons (kept.imp id fun h => replaceMark_ne_cons (by decide) h.2), ih]

/-- Only names that begin with a character have a segment when they come first. -/
theorem segments_ofPath (first : path.head? ≠ some (.key "")) :
    segments (ofPath path) = path.map fun s => String.ofList s.chars := by
  have text : fragment (ofPath path).toList =
      (path.map fun s => escape s.chars).flatMap ('/' :: ·) := by
    rw [ofPath, String.toList_ofList]
    rfl
  rw [segments, text]
  cases path with
  | nil => rfl
  | cons s path =>
    have named : s.chars ≠ [] := by
      cases s with
      | key name =>
        intro h
        exact first (by rw [List.head?_cons, String.toList_eq_nil_iff.1 h])
      | item i => exact Nat.toDigits_ne_nil
    obtain ⟨c, cs, hc⟩ := List.exists_cons_of_ne_nil fun h => named (escape_eq_nil.1 h)
    have plain : c ≠ '/' := by
      rintro rfl
      exact slash_not_mem_escape s.chars (hc ▸ List.mem_cons_self)
    have stripped : (((s :: path).map fun s => escape s.chars).flatMap ('/' :: ·)).dropWhile
        (· == '/') = escape s.chars ++ (path.map fun s => escape s.chars).flatMap ('/' :: ·) := by
      rw [List.map_cons, List.flatMap_cons, List.cons_append,
        List.dropWhile_cons_of_pos (by rfl), hc, List.cons_append,
        List.dropWhile_cons_of_neg (by simpa using plain)]
    have pieces : ∀ piece ∈ escape s.chars :: path.map fun s => escape s.chars, '/' ∉ piece := by
      intro piece hp
      obtain ⟨s, -, rfl⟩ := List.mem_map.1 (List.map_cons (f := fun s => escape (Step.chars s)) ▸ hp)
      exact slash_not_mem_escape _
    rw [stripped]
    split
    · next h => exact absurd (List.append_eq_nil_iff.1 h).1 (hc ▸ List.cons_ne_nil _ _)
    · rw [split_flatMap pieces]
      simp [Function.comp_def, unescape_escape]

/-- The positions on a path have no more digits than a number may have. -/
def Numbered (path : List Step) : Prop :=
  ∀ i, .item i ∈ path → (Nat.toDigits 10 i).length ≤ Integer.maxDigits

theorem step_of_part? (leads : v.part? s = some w) (numbered : Numbered [s]) :
    step v (String.ofList s.chars) = some w := by
  cases v with
  | obj entries =>
    cases s with
    | key name =>
      rw [Step.chars, String.ofList_toList]
      exact leads
    | item i => cases leads
  | arr items =>
    cases s with
    | key name => cases leads
    | item i =>
      have index : index? (String.ofList (Nat.toDigits 10 i)).toList = some (i : Int) := by
        rw [String.toList_ofList]
        exact Integer.ofText?_toDigits (numbered i List.mem_cons_self)
      change (index? (String.ofList (Nat.toDigits 10 i)).toList).bind (item? items) = some w
      rw [index, Option.bind_some, item?, if_pos (Int.natCast_nonneg i), Int.toNat_natCast]
      exact leads
  | _ => cases s <;> cases leads

/-- By induction on the path: each segment is read as the step that it was written for. -/
theorem foldlM_step (leads : v.at? path = some w) (numbered : Numbered path) :
    (path.map fun s => String.ofList s.chars).foldlM step v = some w := by
  induction path generalizing v with
  | nil => exact leads
  | cons s path ih =>
    obtain ⟨part, here, rest⟩ := Option.bind_eq_some_iff.1 leads
    have first : Numbered [s] := fun i hi => numbered i (by simp_all)
    rw [List.map_cons, List.foldlM_cons, step_of_part? here first]
    exact ih rest fun i hi => numbered i (List.mem_cons_of_mem _ hi)

theorem resolve_ofPath (first : path.head? ≠ some (.key "")) (numbered : Numbered path)
    (leads : document.at? path = some v) : resolve document (ofPath path) = some v := by
  have sign : (ofPath path).toList.head? = some '#' := by
    rw [ofPath, String.toList_ofList]
    rfl
  rw [resolve, if_pos sign, segments_ofPath first]
  exact foldlM_step leads numbered

theorem head_of_resolve {text : String} (leads : resolve document text = some v) :
    text.toList.head? = some '#' := by
  unfold resolve at leads
  split at leads
  · assumption
  · cases leads

theorem isLocal_of_head {text : String} (here : text.toList.head? = some '#') : isLocal text = true := by
  unfold isLocal
  cases h : text.toList with
  | nil => simp [h] at here
  | cons c cs =>
    obtain rfl : c = '#' := by simpa [h] using here
    rfl

theorem head_ne_of_isLocal {text : String} (far : isLocal text = false) :
    text.toList.head? ≠ some '#' := fun here => by
  rw [isLocal_of_head here] at far
  cases far

theorem toList_component (sec name : String) :
    (component sec name).toList = "#/components/".toList ++ (sec.toList ++ '/' :: escape name.toList) := by
  unfold component
  simp [toString]

/-- The reference to a component goes through the components first. -/
theorem segments_component (sec name : String) :
    segments (component sec name) = "components" ::
      (split '/' (sec.toList ++ '/' :: escape name.toList)).map fun segment =>
        String.ofList (unescape segment) := by
  have hash (rest : List Char) : (fragment ("#/components/".toList ++ rest)).dropWhile
      (· == '/') = "components".toList ++ '/' :: rest := rfl
  rw [segments, toList_component, hash]
  change (split '/' _).map _ = _
  rw [split_append _ _ (by decide), List.map_cons]
  rfl

/-- The section ends at the last slash, since the name is written without one. -/
theorem component_injective {sec sec' name name' : String}
    (h : component sec name = component sec' name') : sec = sec' ∧ name = name' := by
  have tails : sec.toList ++ '/' :: escape name.toList = sec'.toList ++ '/' :: escape name'.toList := by
    have := congrArg String.toList h
    rw [toList_component, toList_component] at this
    exact List.append_cancel_left this
  have last {ds : List Char} {a b : String}
      (h : ('/' :: escape a.toList) = ds ++ '/' :: escape b.toList) : ds = [] := by
    cases ds with
    | nil => rfl
    | cons d ds =>
      refine absurd ?_ (slash_not_mem_escape a.toList)
      rw [(List.cons.inj h).2]
      simp
  have cut : sec.toList = sec'.toList := by
    rcases List.append_eq_append_iff.1 tails with ⟨ds, hs, ht⟩ | ⟨ds, hs, ht⟩
    · rw [hs, last ht, List.append_nil]
    · rw [hs, last ht, List.append_nil]
  rw [cut] at tails
  exact ⟨String.toList_injective cut, String.toList_injective
    (escape_injective (List.cons.inj (List.append_cancel_left tails)).2)⟩

theorem plain_of_mem_key {group : Component.Group} (hg : group ∈ Component.groups) :
    ∀ c ∈ group.key.toList, c ≠ '~' ∧ c ≠ '/' := by
  have plain : (Component.groups.all fun group =>
      group.key.toList.all fun c => c ≠ '~' ∧ c ≠ '/') = true := by decide
  simpa using List.all_eq_true.1 plain group hg

/-- The reference to a component spells the path to it. -/
theorem component_eq_ofPath {group : Component.Group} (hg : group ∈ Component.groups) (name : String) :
    component group.key name = ofPath [.key "components", .key group.key, .key name] := by
  apply String.toList_injective
  rw [toList_component, ofPath]
  simp only [List.map_cons, List.map_nil, List.flatMap_cons, List.flatMap_nil, List.append_nil,
    Step.chars]
  rw [escape_of_plain (plain_of_mem_key hg)]
  exact .trans rfl String.toList_ofList.symm

/-- A component that is declared is where its reference leads. -/
theorem resolve_component {group : Component.Group} (hg : group ∈ Component.groups) {name : String}
    (declared : ((document.get "components").get group.key).get? name = some v) :
    resolve document (component group.key name) = some v := by
  have at' : document.at? [.key "components", .key group.key, .key name] = some v := by
    simp only [Json.at?, List.foldlM_cons, Json.part?_key]
    rw [Json.get?_of_get_get? (Json.get?_of_get_get? declared), Option.bind_eq_bind, Option.bind_some,
      Json.get?_of_get_get? declared]
    simp [declared]
  rw [component_eq_ofPath hg]
  exact resolve_ofPath (by simp) (fun i hi => by simp at hi) at'

end Pointer

theorem Component.head_key (e : Component.Entry) : e.key.toList.head? = some '#' := by
  rw [Entry.key, Pointer.toList_component]
  rfl

theorem Component.isLocal_key (e : Component.Entry) : Pointer.isLocal e.key = true :=
  Pointer.isLocal_of_head (head_key e)

open Pointer in
/-- A reference that spells a path is cut into the steps of the path and leads where the path
leads; only a path that begins with the empty name cannot be spelled. The references of components
are among these, and each of them tells its section and its name. -/
theorem references_spell_paths :
    (∀ path : List Step, path.head? ≠ some (.key "") →
      segments (ofPath path) = path.map (fun s => String.ofList s.chars) ∧
      ∀ document v : Json, document.at? path = some v → Numbered path →
        resolve document (ofPath path) = some v) ∧
    (∀ group ∈ Component.groups, ∀ (document : Json) (name : String) (node : Json),
      ((document.get "components").get group.key).get? name = some node →
        resolve document (component group.key name) = some node) ∧
    ∀ sec name sec' name' : String, component sec name = component sec' name' →
      sec = sec' ∧ name = name' :=
  ⟨fun _ first => ⟨segments_ofPath first, fun _ _ leads numbered =>
      resolve_ofPath first numbered leads⟩,
    fun _ hg _ _ _ declared => resolve_component hg declared,
    fun _ _ _ _ h => component_injective h⟩

/-- Keys may look like escapes, or be empty. -/
def Pointer.odd : Json :=
  .obj [("components", .obj [("schemas", .obj [("~1#/", .arr [.null, .obj [("", .int 7)]])])])]

open Pointer in
theorem references_spell_paths_odd :
    segments "#/components/schemas/~01#~1/1/" = ["components", "schemas", "~1#/", "1", ""] ∧
      resolve odd "#/components/schemas/~01#~1/1/" = some (.int 7) ∧
      resolve odd (component "schemas" "~1#/") = some (.arr [.null, .obj [("", .int 7)]]) ∧
      component "schemas" "a/b" ≠ component "schemas/a" "b" := by
  obtain ⟨paths, components, injective⟩ := references_spell_paths
  obtain ⟨cut, leads⟩ := paths [.key "components", .key "schemas", .key "~1#/", .item 1, .key ""]
    (by simp)
  have spelled : ofPath [.key "components", .key "schemas", .key "~1#/", .item 1, .key ""] =
      "#/components/schemas/~01#~1/1/" := by decide
  rw [spelled] at cut leads
  refine ⟨cut, leads odd (.int 7) rfl ?_, components ⟨"schemas", "Schema", none⟩
    (.head _) odd "~1#/" _ rfl, fun h => ?_⟩
  · intro i hi
    obtain rfl : i = 1 := by simpa using hi
    decide
  · exact absurd (injective _ _ _ _ h).1 (by decide)

end ApiGraph
