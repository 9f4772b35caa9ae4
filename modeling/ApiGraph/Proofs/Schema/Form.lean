import ApiGraph.Schema.Form

/-! What the form of a node tells of the node: which keywords it has, and which hint came with it. -/

namespace ApiGraph.Schema

variable {node : Json} {hint : Option Form} {form : Form}

theorem isRef_of_formOf (h : formOf node hint = .reference) : node.has "$ref" = true := by
  unfold formOf at h
  repeat' split at h
  all_goals simp_all

theorem plain_of_formOf (h : formOf node hint = form) (hf : form ≠ .reference) :
    node.has "$ref" = false := by
  cases hr : node.has "$ref" with
  | false => rfl
  | true => exact absurd (h ▸ by simp [formOf, hr]) hf

/-- Only a node with a type of its own is a security scheme. -/
theorem securityType_of_formOf (h : formOf node hint = .securityScheme) :
    ∃ type, node.get? "type" = some (.str type) ∧ securityTypes.contains type = true := by
  have secure : (node.get "type").text?.any securityTypes.contains = true := by
    unfold formOf at h
    repeat' split at h
    all_goals simp_all
  unfold Json.get at secure
  cases ht : node.get? "type" with
  | none =>
    rw [ht] at secure
    cases secure
  | some type =>
    rw [ht] at secure
    cases type with
    | str word => exact ⟨word, rfl, secure⟩
    | _ => cases secure

theorem named_of_formOf (h : formOf node hint = .parameter) : node.has "name" = true := by
  unfold formOf at h
  repeat' split at h
  all_goals simp_all

/-- A hint makes no schema. -/
theorem formOf_none (h : formOf node hint = .schema) : formOf node none = .schema := by
  unfold formOf at h ⊢
  repeat' split at h
  all_goals simp_all

/-- Something with a name and a place is no schema. -/
theorem formOf_ne_schema (hn : node.has "name" = true) (hi : node.has "in" = true) :
    formOf node hint ≠ .schema := by
  unfold formOf
  repeat' split
  all_goals simp_all

/-- Only a hint makes a node a response or a request body. -/
theorem hint_of_formOf (hf : form = .response ∨ form = .requestBody) (h : formOf node hint = form) :
    hint = some form := by
  subst h
  unfold formOf at hf ⊢
  repeat' split at hf
  all_goals simp_all

end ApiGraph.Schema
