import ApiGraph.Proofs.Json.Oversize
import ApiGraph.Source

/-! How loading ends. A source gives a document or a flaw that tells why there is none, unless
reading stumbles: over bytes that are no text, over a number that is too long, over a value of YAML
that cannot be made, or over a reply or a path that cannot be used. These are all the ways to
stumble, and each of them ends the loading. -/

namespace ApiGraph

variable {α : Type} {P : α → Prop} {S : Misuse → Prop} {x : Except Failure α} {kind : Misuse}
  {text : String} {n : Notation} {files : Files.Tree} {path : String} {around : Surroundings}

/-- The outcome is of the expected sort, or it is a flaw of what was to be read. -/
inductive Reported (P : α → Prop) : Except Failure α → Prop
  | ok {a : α} (expected : P a) : Reported P (.ok a)
  | flaw (flaw : LoadFlaw) : Reported P (.error (.load flaw))

/-- An outcome that is not reported is a misuse, which happens in the known ways and in no
others. -/
structure Accounted (P : α → Prop) (S : Misuse → Prop) (x : Except Failure α) : Prop where
  outcome : Reported P x ∨ ∃ kind, x = .error (.misuse kind)
  misuse_iff : ∀ kind, x = .error (.misuse kind) ↔ S kind

namespace Accounted

theorem of_reported (h : Reported P x) (safe : ∀ kind, ¬ S kind) : Accounted P S x := by
  refine ⟨.inl h, fun kind => iff_of_false ?_ (safe kind)⟩
  rintro rfl
  cases h

theorem of_misuse (h : S kind) (only : ∀ k, S k → k = kind) :
    Accounted P S (.error (.misuse kind)) := by
  refine ⟨.inr ⟨kind, rfl⟩, fun k => ⟨?_, fun hk => by rw [only k hk]⟩⟩
  intro same
  cases same
  exact h

theorem congr {S' : Misuse → Prop} (h : Accounted P S x) (same : ∀ kind, S kind ↔ S' kind) :
    Accounted P S' x :=
  ⟨h.outcome, fun kind => (h.misuse_iff kind).trans (same kind)⟩

theorem reported_iff (h : Accounted P S x) : Reported P x ↔ ∀ kind, ¬ S kind := by
  constructor
  · intro reported kind stumbles
    rw [(h.misuse_iff kind).2 stumbles] at reported
    cases reported
  · intro safe
    rcases h.outcome with reported | ⟨kind, misuse⟩
    · exact reported
    · exact absurd ((h.misuse_iff kind).1 misuse) (safe kind)

end Accounted

namespace Document

/-- Whether a datum is a mapping. -/
def IsMap (d : Datum) : Prop := ∃ entries, d = .map entries

/-- Whether a text is read as YAML: if it has to be, or if it can be and is no JSON. -/
def TriesYaml (text : String) (n : Notation) : Prop :=
  n = .yaml ∨ n = .either ∧ ∃ fault, Json.parse text = .error fault ∧ fault.flaw ≠ .hugeInteger

/-- What a reader of a text stumbles over. -/
inductive Stumbles (text : String) (n : Notation) : Misuse → Prop
  | number (tried : n ≠ .yaml) (oversized : Json.Oversized text) : Stumbles text n .badValue
  | value {kind : Misuse} (tried : TriesYaml text n)
    (stuck : Yaml.read text = .error (.value kind)) : Stumbles text n kind

theorem reported_requireMap (d : Datum) : Reported IsMap (requireMap d) := by
  cases d with
  | map entries => exact .ok ⟨entries, rfl⟩
  | _ => exact .flaw _

theorem accounted_ofYaml (text : String) (fault : Option Json.Fault) :
    Accounted IsMap (fun kind => Yaml.read text = .error (.value kind)) (ofYaml text fault) := by
  unfold ofYaml
  split
  · next d h => exact .of_reported (reported_requireMap d) fun kind hk => by rw [h] at hk; cases hk
  · next h => exact .of_reported (.flaw _) fun kind hk => by rw [h] at hk; cases hk
  · next kind h =>
    refine .of_misuse h fun k hk => ?_
    rw [h] at hk
    cases hk
    rfl

/-- A text is a document or tells its flaw, unless a reader stumbles over it. -/
theorem accounted_ofText (text : String) (n : Notation) :
    Accounted IsMap (Stumbles text n) (ofText text n) := by
  unfold ofText
  split
  · next yaml =>
    refine (accounted_ofYaml text none).congr fun kind => ⟨.value (.inl yaml), ?_⟩
    rintro (⟨tried, -⟩ | ⟨-, stuck⟩)
    · exact absurd yaml tried
    · exact stuck
  · next json =>
    split
    · next v h =>
      refine .of_reported (reported_requireMap _) ?_
      rintro kind (⟨-, fault, refused, -⟩ | ⟨yaml | ⟨-, fault, refused, -⟩, -⟩)
      · rw [h] at refused
        cases refused
      · exact json yaml
      · rw [h] at refused
        cases refused
    · next fault h =>
      split
      · next huge =>
        refine .of_misuse (.number json ⟨fault, h, huge⟩) ?_
        rintro kind (_ | ⟨yaml | ⟨-, fault', refused, other⟩, -⟩)
        · rfl
        · exact absurd yaml json
        · rw [h] at refused
          cases refused
          exact absurd huge other
      · next other =>
        have sized : ¬ Json.Oversized text := by
          rintro ⟨fault', refused, huge⟩
          rw [h] at refused
          cases refused
          exact other huge
        split
        · next only =>
          refine .of_reported (.flaw _) ?_
          rintro kind (⟨-, oversized⟩ | ⟨yaml | ⟨either, -⟩, -⟩)
          · exact sized oversized
          · exact json yaml
          · rw [only] at either
            cases either
        · next open' =>
          have either : n = .either := by cases n <;> first | rfl | contradiction
          have yaml : TriesYaml text n := .inr ⟨either, fault, h, other⟩
          refine (accounted_ofYaml text _).congr fun kind => ⟨.value yaml, ?_⟩
          rintro (⟨-, oversized⟩ | ⟨-, stuck⟩)
          · exact absurd oversized sized
          · exact stuck

end Document

/-- Whether bytes are no UTF-8 text. -/
def Files.Undecodable (bytes : List UInt8) : Prop := ¬ (ByteArray.mk bytes.toArray).IsValidUTF8

theorem Files.textOf_cases (bytes : List UInt8) :
    (Undecodable bytes ∧ textOf bytes = .error (.misuse .undecodable)) ∨
      ¬ Undecodable bytes ∧ ∃ text, textOf bytes = .ok text := by
  unfold textOf decode Undecodable String.fromUTF8?
  by_cases valid : (ByteArray.mk bytes.toArray).IsValidUTF8
  · exact .inr ⟨not_not_intro valid, _, by rw [dif_pos valid]; rfl⟩
  · exact .inl ⟨valid, by rw [dif_neg valid]; rfl⟩

namespace Source

/-- The text that a source gives, and the notation that it is in. -/
inductive Gives (around : Surroundings) : Source → String → Notation → Prop
  | input (full : Document.isBlankText around.input = false) :
    Gives around .input around.input .either
  | file {path text : String} {bytes : List UInt8}
    (here : around.files.read (.ofText path) = .ok bytes) (encoded : Files.textOf bytes = .ok text)
    (full : Document.isBlankText text = false) :
    Gives around (.file path) text (fileNotation (.ofText path))
  | address {url text : String} {r : Reply} {bytes : List UInt8}
    (answer : around.answer url = .reply r) (plain : r.hasPlainHeaders = true)
    (unpacked : r.content = .ok bytes) (success : r.isSuccess = true)
    (encoded : r.textOf bytes = .ok text) :
    Gives around (.address url) text (contentNotation (r.header "content-type"))

/-- What the loading of a source stumbles over: its text, or what is in the way of a text. -/
inductive Stumbles (around : Surroundings) : Source → Misuse → Prop
  | text {source : Source} {text : String} {n : Notation} {kind : Misuse}
    (gives : Gives around source text n) (stumbles : Document.Stumbles text n kind) :
    Stumbles around source kind
  | bytes {path : String} {bytes : List UInt8}
    (here : around.files.read (.ofText path) = .ok bytes) (undecodable : Files.Undecodable bytes) :
    Stumbles around (.file path) .undecodable
  | path {path : String} (long : around.files.read (.ofText path) = .error .tooLong) :
    Stumbles around (.file path) .tooLong
  | headers {url : String} {r : Reply} (answer : around.answer url = .reply r)
    (foreign : r.hasPlainHeaders = false) : Stumbles around (.address url) .unencodable
  | encoding {url : String} {r : Reply} {bytes : List UInt8} {kind : Misuse}
    (answer : around.answer url = .reply r) (plain : r.hasPlainHeaders = true)
    (unpacked : r.content = .ok bytes) (success : r.isSuccess = true)
    (stuck : r.textOf bytes = .error kind) : Stumbles around (.address url) kind

theorem stumbles_input_iff :
    Stumbles around .input kind ↔ Document.isBlankText around.input = false ∧
      Document.Stumbles around.input .either kind := by
  constructor
  · rintro ⟨⟨full⟩, stumbles⟩
    exact ⟨full, stumbles⟩
  · rintro ⟨full, stumbles⟩
    exact .text (.input full) stumbles

theorem stumbles_file_iff :
    Stumbles around (.file path) kind ↔
      (around.files.read (.ofText path) = .error .tooLong ∧ kind = .tooLong) ∨
      ∃ bytes, around.files.read (.ofText path) = .ok bytes ∧
        ((Files.Undecodable bytes ∧ kind = .undecodable) ∨
          ∃ text, Files.textOf bytes = .ok text ∧ Document.isBlankText text = false ∧
            Document.Stumbles text (fileNotation (.ofText path)) kind) := by
  constructor
  · intro h
    cases h with
    | text gives stumbles =>
      cases gives with
      | file here encoded full => exact .inr ⟨_, here, .inr ⟨_, encoded, full, stumbles⟩⟩
    | bytes here undecodable => exact .inr ⟨_, here, .inl ⟨undecodable, rfl⟩⟩
    | path long => exact .inl ⟨long, rfl⟩
  · rintro (⟨long, rfl⟩ | ⟨bytes, here, ⟨undecodable, rfl⟩ | ⟨text, encoded, full, stumbles⟩⟩)
    · exact .path long
    · exact .bytes here undecodable
    · exact .text (.file here encoded full) stumbles

theorem stumbles_address_iff {url : String} :
    Stumbles around (.address url) kind ↔ ∃ r, around.answer url = .reply r ∧
      ((r.hasPlainHeaders = false ∧ kind = .unencodable) ∨
        r.hasPlainHeaders = true ∧ ∃ bytes, r.content = .ok bytes ∧ r.isSuccess = true ∧
          (r.textOf bytes = .error kind ∨ ∃ text, r.textOf bytes = .ok text ∧
            Document.Stumbles text (contentNotation (r.header "content-type")) kind)) := by
  constructor
  · intro h
    cases h with
    | text gives stumbles =>
      cases gives with
      | address answer plain unpacked success encoded =>
        exact ⟨_, answer, .inr ⟨plain, _, unpacked, success, .inr ⟨_, encoded, stumbles⟩⟩⟩
    | headers answer foreign => exact ⟨_, answer, .inl ⟨foreign, rfl⟩⟩
    | encoding answer plain unpacked success stuck =>
      exact ⟨_, answer, .inr ⟨plain, _, unpacked, success, .inl stuck⟩⟩
  · rintro ⟨r, answer, ⟨foreign, rfl⟩ | ⟨plain, bytes, unpacked, success, stuck |
      ⟨text, encoded, stumbles⟩⟩⟩
    · exact .headers answer foreign
    · exact .encoding answer plain unpacked success stuck
    · exact .text (.address answer plain unpacked success encoded) stumbles

theorem accounted_input (around : Surroundings) :
    Accounted Document.IsMap (Stumbles around .input) (load around .input) := by
  rw [load]
  split
  · next blank => exact .of_reported (.flaw _) fun kind => by simp [stumbles_input_iff, blank]
  · next full =>
    exact (Document.accounted_ofText around.input .either).congr fun kind => by
      simp [stumbles_input_iff, full]

theorem accounted_file (around : Surroundings) (path : String) :
    Accounted Document.IsMap (Stumbles around (.file path)) (loadFile around.files path) := by
  cases here : around.files.read (.ofText path) with
  | error obstacle =>
    have flaw (other : obstacle ≠ .tooLong) : Accounted Document.IsMap
        (Stumbles around (.file path)) (.error (.load (.notFound path))) :=
      .of_reported (.flaw _) fun kind => by simp [stumbles_file_iff, here, other]
    rw [loadFile, here]
    cases obstacle <;> first
      | exact .of_misuse (.path here) fun k => by simp [stumbles_file_iff, here]
      | exact flaw nofun
  | ok bytes =>
    rw [loadFile, here]
    dsimp only
    rcases Files.textOf_cases bytes with ⟨undecodable, failed⟩ | ⟨valid, text, encoded⟩
    · rw [failed]
      exact .of_misuse (.bytes here undecodable) fun k => by
        simp [stumbles_file_iff, here, undecodable, failed]
    · rw [encoded]
      dsimp only [bind, Except.bind]
      cases full : Document.isBlankText text with
      | true =>
        have flaw : Accounted Document.IsMap (Stumbles around (.file path))
            (.error (.load (.emptyFile path))) :=
          .of_reported (.flaw _) fun kind => by
            simp [stumbles_file_iff, here, valid, encoded, full]
        exact flaw
      | false =>
        have document : Accounted Document.IsMap (Stumbles around (.file path))
            (Document.ofText text (fileNotation (.ofText path))) :=
          (Document.accounted_ofText text _).congr fun kind => by
            simp [stumbles_file_iff, here, valid, encoded, full]
        simpa using document

theorem accounted_answer (around : Surroundings) (url : String) :
    Accounted Document.IsMap (Stumbles around (.address url))
      (loadAnswer url (around.answer url)) := by
  cases answer : around.answer url with
  | refused reason =>
    exact .of_reported (.flaw _) fun kind => by simp [stumbles_address_iff, answer]
  | reply r =>
    rw [loadAnswer]
    cases plain : r.hasPlainHeaders with
    | false =>
      exact .of_misuse (.headers answer plain) fun k => by
        simp [stumbles_address_iff, answer, plain]
    | true =>
      cases unpacked : r.content with
      | error packing =>
        exact .of_reported (.flaw (.unreachable url (unpackFlaw packing))) fun kind => by
          simp [stumbles_address_iff, answer, plain, unpacked]
      | ok bytes =>
        cases success : r.isSuccess with
        | false =>
          exact .of_reported (.flaw (.status r.status url)) fun kind => by
            simp [stumbles_address_iff, answer, plain, unpacked, success]
        | true =>
          dsimp only
          cases encoded : r.textOf bytes with
          | error kind =>
            refine .of_misuse (.encoding answer plain unpacked success encoded) fun k hk => ?_
            have same : kind = k := by
              simpa [stumbles_address_iff, answer, plain, unpacked, success, encoded] using hk
            exact same.symm
          | ok text =>
            have document : Accounted Document.IsMap (Stumbles around (.address url))
                (Document.ofText text (contentNotation (r.header "content-type"))) :=
              (Document.accounted_ofText text _).congr fun kind => by
                simp [stumbles_address_iff, answer, plain, unpacked, success, encoded]
            exact document

theorem accounted_load (around : Surroundings) (source : Source) :
    Accounted Document.IsMap (Stumbles around source) (load around source) := by
  cases source with
  | input => exact accounted_input around
  | address url => exact accounted_answer around url
  | file path => exact accounted_file around path

end Source

namespace Snapshot

/-- What the loading of a snapshot stumbles over: its name, its bytes, or a number in it. -/
inductive Stumbles (files : Files.Tree) (path : String) : Misuse → Prop
  | name (foreign : files.read (.ofText path) = .error .unnameable) : Stumbles files path .badValue
  | bytes {bytes : List UInt8} (here : files.read (.ofText path) = .ok bytes)
    (undecodable : Files.Undecodable bytes) : Stumbles files path .undecodable
  | number {bytes : List UInt8} {text : String} (here : files.read (.ofText path) = .ok bytes)
    (encoded : Files.textOf bytes = .ok text) (oversized : Json.Oversized text) :
    Stumbles files path .badValue

theorem stumbles_iff :
    Stumbles files path kind ↔
      (files.read (.ofText path) = .error .unnameable ∧ kind = .badValue) ∨
      ∃ bytes, files.read (.ofText path) = .ok bytes ∧
        ((Files.Undecodable bytes ∧ kind = .undecodable) ∨
          ∃ text, Files.textOf bytes = .ok text ∧ Json.Oversized text ∧ kind = .badValue) := by
  constructor
  · rintro (foreign | ⟨here, undecodable⟩ | ⟨here, encoded, oversized⟩)
    · exact .inl ⟨foreign, rfl⟩
    · exact .inr ⟨_, here, .inl ⟨undecodable, rfl⟩⟩
    · exact .inr ⟨_, here, .inr ⟨_, encoded, oversized, rfl⟩⟩
  · rintro (⟨foreign, rfl⟩ | ⟨bytes, here, ⟨undecodable, rfl⟩ | ⟨text, encoded, oversized, rfl⟩⟩)
    · exact .name foreign
    · exact .bytes here undecodable
    · exact .number here encoded oversized

theorem accounted_ofFile (files : Files.Tree) (path : String) :
    Accounted (fun _ => True) (Stumbles files path) (ofFile files path) := by
  cases here : files.read (.ofText path) with
  | error obstacle =>
    rw [ofFile, here]
    cases obstacle <;> first
      | exact .of_misuse (.name here) fun k => by simp [stumbles_iff, here]
      | exact .of_reported (.flaw _) fun k => by simp [stumbles_iff, here]
  | ok bytes =>
    rw [ofFile, here]
    dsimp only
    rcases Files.textOf_cases bytes with ⟨undecodable, failed⟩ | ⟨valid, text, encoded⟩
    · rw [failed]
      exact .of_misuse (.bytes here undecodable) fun k => by
        simp [stumbles_iff, here, undecodable, failed]
    · rw [encoded]
      dsimp only [bind, Except.bind]
      cases parsed : Json.parse text with
      | error fault =>
        dsimp only
        split
        · next huge =>
          have oversized : Json.Oversized text := ⟨fault, parsed, huge⟩
          exact .of_misuse (.number here encoded oversized) fun k => by
            simp [stumbles_iff, here, valid, encoded, oversized]
        · next other =>
          exact .of_reported (.flaw (.snapshotJson path fault)) fun k => by
            simp [stumbles_iff, here, valid, encoded, Json.Oversized, parsed, other]
      | ok v =>
        have safe : ∀ k, ¬ Stumbles files path k := fun k => by
          simp [stumbles_iff, here, valid, encoded, Json.Oversized, parsed]
        dsimp only
        cases ofJson v with
        | ok s => exact .of_reported (.ok trivial) safe
        | error flaw => exact .of_reported (.flaw flaw) safe

end Snapshot

/-- Files of which one has a byte that is part of no text. -/
def spoiled : Surroundings where
  files := [(.ofText "b.json", .file [0x7b, 0x7d, 0xff])]
  input := ""
  answer _ := .refused ""

end ApiGraph
