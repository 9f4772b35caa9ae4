import ApiGraph.Datum
import ApiGraph.Failure

/-! The versions of descriptions that are accepted, which are the texts that begin with `3.`, and
the release of this library. -/

namespace ApiGraph

/-- The release of this library. Snapshots that another release stored are not found. -/
def release : String := "0.3.0"

/-- What a mapping declares about its version. The values are as messages show them. -/
structure Declaration where
  /-- The version of the old format, if one is declared. -/
  swagger : Option String
  /-- The version of the format, unless it is null. -/
  openapi : Option String
  /-- Whether the version of the format is a text. -/
  isText : Bool

/-- What a JSON value declares; only an object declares anything. -/
def Json.declaration (v : Json) : Option Declaration :=
  if v.isObject then
    let version := v.get "openapi"
    some ⟨(v.get? "swagger").map Json.shown, version.nonNull.map Json.shown, version.text?.isSome⟩
  else none

/-- What a value that was read declares; only a mapping declares anything. There is no telling
what it is when a message cannot show it. -/
def Datum.declaration (v : Datum) : Except Failure (Option Declaration) :=
  let shown (v : Datum) : Except Failure String :=
    match v.shown? with
    | some s => .ok s
    | none => .error (.misuse .badValue)
  if v.isMap then
    match v.get? "swagger" with
    | some old => do return some ⟨some (← shown old), none, false⟩
    | none => do
      let version := v.get "openapi"
      return some ⟨none, ← version.nonNull.mapM shown, version.isText⟩
  else .ok none

/-- The version that is declared, when it is an accepted one. -/
def Declaration.accept (declared : Option Declaration) (source : Option String) :
    Except Failure String :=
  match declared with
  | none => .error (.version none source)
  | some d =>
    match d.swagger, d.openapi with
    | some v, _ => .error (.legacy v source)
    | none, none => .error (.version none source)
    | none, some v =>
      if d.isText && ['3', '.'].isPrefixOf v.toList then .ok v
      else .error (.version (some v) source)

/-- The version of a document, when it is an accepted one. -/
def declaredVersion (document : Json) (source : Option String) : Except Failure String :=
  Declaration.accept document.declaration source

theorem declaredVersion_eq_ok {document : Json} {source : Option String} {v : String}
    (h : declaredVersion document source = .ok v) : document.get "openapi" = .str v := by
  unfold declaredVersion Declaration.accept at h
  split at h
  · simp at h
  · next d hd =>
    unfold Json.declaration at hd
    split at hd
    · simp only [Option.some.injEq] at hd
      subst hd
      split at h
      · simp at h
      · simp at h
      · next w _ hw =>
        split at h
        · next hc =>
          cases hv : document.get "openapi" <;>
            simp_all [Json.text?, Json.nonNull, Json.shown]
        · simp at h
    · simp at hd

end ApiGraph
