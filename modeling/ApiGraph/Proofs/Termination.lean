import ApiGraph.Proofs.Resolve.Questions
import Mathlib.Data.Finset.Card
import Mathlib.Tactic.Linarith

/-! The resolution of a node ends, and so does the collection of components, whatever refers to
what. Between two references that are followed the nodes get smaller, and each reference that is
followed takes a text of the document from those that are no key yet. -/

namespace ApiGraph

open Resolving

/-- The questions of a computation, one after the other, each with the questions that it leads to
itself. -/
inductive Calls where
  | nil
  | cons (cause : Cause) (question : Question) (below rest : Calls)

namespace Calls

/-- The references that are followed, in order. -/
def followed : Calls → List String
  | .nil => []
  | .cons .part _ below rest => below.followed ++ rest.followed
  | .cons (.followed text) _ below rest => text :: below.followed ++ rest.followed

/-- A computation that starts in a state for a node makes some calls and then comes to a reply. Each
question arises from the node, is answered by the resolution of its own node, and the computation
goes on with the answer in the state that the answer leaves. -/
def Made (document : Json) : Calls → {α : Type} → Json → Progress → (Resolver → Upshot α) →
    Upshot α → Prop
  | .nil, _, _, p, F, reply => (F = fun _ => reply) ∧ p.Keeps reply.2
  | .cons cause c below rest, α, node, p, F, reply =>
    c.Arises document node p cause ∧ p.Keeps c.state ∧
    ∃ (next : Upshot Outcome → Resolver → Upshot α) (answer : Upshot Outcome),
      (F = fun self => next (c.reply self) self) ∧
      below.Made document c.node c.state (fun self => c.reply (resolveForm document self)) answer ∧
      rest.Made document node answer.2 (next answer) reply

variable {document node : Json} {p q : Progress} {α : Type} {F : Resolver → Upshot α}
  {reply : Upshot α} {calls : Calls}

/-- No key is forgotten. -/
theorem Made.keeps (h : calls.Made document node p F reply) : p.Keeps reply.2 := by
  induction calls generalizing α node p with
  | nil => exact h.2
  | cons cause c below rest ih₁ ih₂ =>
    obtain ⟨-, keeps, next, answer, -, made, more⟩ := h
    exact (keeps.trans (ih₁ made)).trans (ih₂ more)

theorem Made.mono (h : calls.Made document node q F reply) (hk : p.Keeps q) :
    calls.Made document node p F reply := by
  cases calls with
  | nil => exact ⟨h.1, hk.trans h.2⟩
  | cons cause c below rest =>
    obtain ⟨arises, keeps, more⟩ := h
    exact ⟨arises.mono hk, hk.trans keeps, more⟩

/-- What is followed was no key before, is a key afterwards, and is followed once. -/
theorem Made.followed (h : calls.Made document node p F reply) :
    calls.followed.Nodup ∧ ∀ text ∈ calls.followed,
      text ∉ Dict.keys p.registry.named ∧ text ∈ Dict.keys reply.2.registry.named := by
  induction calls generalizing α node p with
  | nil => exact ⟨List.nodup_nil, by simp [Calls.followed]⟩
  | cons cause c below rest ih₁ ih₂ =>
    obtain ⟨arises, keeps, next, answer, -, made, more⟩ := h
    obtain ⟨nodup₁, keys₁⟩ := ih₁ made
    obtain ⟨nodup₂, keys₂⟩ := ih₂ more
    have kept : answer.2.Keeps reply.2 := more.keeps
    have known : c.state.Keeps answer.2 := made.keeps
    have nodup : (below.followed ++ rest.followed).Nodup :=
      List.nodup_append.2 ⟨nodup₁, nodup₂, fun text h₁ _ h₂ he =>
        (keys₂ text (he ▸ h₂)).1 (keys₁ text h₁).2⟩
    have keys : ∀ text ∈ below.followed ++ rest.followed,
        text ∉ Dict.keys c.state.registry.named ∧ text ∈ Dict.keys reply.2.registry.named := by
      intro text ht
      obtain ht | ht := List.mem_append.1 ht
      · exact ⟨(keys₁ text ht).1, kept (keys₁ text ht).2⟩
      · exact ⟨fun hk => (keys₂ text ht).1 (known hk), (keys₂ text ht).2⟩
    have later : ∀ text ∈ below.followed ++ rest.followed,
        text ∉ Dict.keys p.registry.named ∧ text ∈ Dict.keys reply.2.registry.named :=
      fun text ht => ⟨fun hk => (keys text ht).1 (keeps hk), (keys text ht).2⟩
    cases arises with
    | part _ => exact ⟨nodup, later⟩
    | followed _ _ _ new _ reserved =>
      refine ⟨List.nodup_cons.2 ⟨fun ht => (keys _ ht).1 reserved, nodup⟩, fun text ht => ?_⟩
      obtain rfl | ht := List.mem_cons.1 ht
      · exact ⟨new, kept (known reserved)⟩
      · exact later text ht

end Calls

/-- The resolution of nodes with a bound on the depth and something else at the bottom. -/
def unrolled (document : Json) (bottom : Resolver) : Nat → Resolver
  | 0 => bottom
  | depth + 1 => resolveForm document (unrolled document bottom depth)

theorem resolveWithin_eq_unrolled (document : Json) (depth : Nat) :
    resolveWithin document depth =
      unrolled document (fun _ _ => fail (.misuse .endless)) depth := by
  induction depth with
  | zero => rfl
  | succ depth ih =>
    funext site node
    rw [resolveWithin, ih]
    rfl

variable {document node : Json} {p q : Progress} {α : Type} {F : Resolver → Upshot α}
  {texts : Finset String} {c : Question} {cause : Cause}

/-- How many texts are no key in a state. -/
def unknown (texts : Finset String) (p : Progress) : Nat :=
  (texts.filter (· ∉ Dict.keys p.registry.named)).card

/-- How deep the resolution of a node can get in a state. -/
def need (document : Json) (texts : Finset String) (node : Json) (p : Progress) : Nat :=
  node.size + unknown texts p * (document.size + 1)

theorem unknown_le (texts : Finset String) (h : p.Keeps q) :
    unknown texts q ≤ unknown texts p :=
  Finset.card_le_card (Finset.monotone_filter_right _ fun _ _ hn hk => hn (h hk))

theorem unknown_lt {text : String} (h : p.Keeps q) (mem : text ∈ texts)
    (new : text ∉ Dict.keys p.registry.named) (known : text ∈ Dict.keys q.registry.named) :
    unknown texts q < unknown texts p := by
  refine Finset.card_lt_card ((Finset.ssubset_iff_of_subset ?_).2 ⟨text, ?_, ?_⟩)
  · exact Finset.monotone_filter_right _ fun _ _ hn hk => hn (h hk)
  · exact Finset.mem_filter.2 ⟨mem, new⟩
  · exact fun hf => (Finset.mem_filter.1 hf).2 known

theorem Json.size_pos (v : Json) : 0 < v.size := by
  cases v <;> simp [Json.size]

/-- A question needs less depth than the node that it arises from, and brings no new texts. -/
theorem need_lt (arises : c.Arises document node p cause) (keeps : p.Keeps c.state)
    (hd : document.texts.toFinset ⊆ texts) (hn : node.texts.toFinset ⊆ texts) :
    need document texts c.node c.state < need document texts node p ∧
      c.node.texts.toFinset ⊆ texts := by
  cases arises with
  | part inside =>
    have hs := inside.size_lt
    have hu := Nat.mul_le_mul_right (document.size + 1) (unknown_le texts keeps)
    refine ⟨by unfold need; omega, fun text ht => hn ?_⟩
    exact List.mem_toFinset.2 (inside.texts_subset (List.mem_toFinset.1 ht))
  | @followed text v stands isRef _ new leads reserved =>
    have mem : text ∈ texts := by
      have own : (Json.str text).Inside v := Json.inside_get? isRef
      have inside : (Json.str text).Inside node := by
        obtain rfl | stands := stands
        · exact own
        · exact own.trans stands
      exact hn (List.mem_toFinset.2 (inside.texts_subset (by simp [Json.texts])))
    have target := Pointer.inside_resolve leads
    constructor
    · have hu := Nat.mul_le_mul_right (document.size + 1)
        (Nat.succ_le_of_lt (unknown_lt keeps mem new reserved))
      have hs : c.node.size ≤ document.size := by
        obtain he | inside := target
        · rw [he]
        · exact inside.size_lt.le
      have hp := node.size_pos
      rw [Nat.succ_mul] at hu
      unfold need
      omega
    · obtain he | inside := target
      · rw [he]
        exact hd
      · exact fun text ht => hd (List.mem_toFinset.2 (inside.texts_subset (List.mem_toFinset.1 ht)))

/-- A question is answered by finitely many calls, and by the resolution up to a depth whatever is
at the bottom. -/
def Question.Answered (document : Json) (depth : Nat) (c : Question) : Prop :=
  ∃ (calls : Calls) (answer : Upshot Outcome),
    calls.Made document c.node c.state (fun self => c.reply (resolveForm document self)) answer ∧
    ∀ bottom extra, c.reply (unrolled document bottom (depth + extra)) = answer

/-- A computation ends when the questions that it asks are answered. -/
theorem Asks.ends {depth : Nat} (h : Asks document node p F)
    (answered : ∀ c : Question, c.node.texts.toFinset ⊆ texts →
      need document texts c.node c.state ≤ depth → c.Answered document depth)
    (hd : document.texts.toFinset ⊆ texts) (hn : node.texts.toFinset ⊆ texts)
    (bound : need document texts node p ≤ depth + 1) :
    ∃ (calls : Calls) (reply : Upshot α), calls.Made document node p F reply ∧
      ∀ bottom extra, F (unrolled document bottom (depth + extra)) = reply := by
  induction h with
  | @done p reply keeps => exact ⟨.nil, reply, ⟨rfl, keeps⟩, fun _ _ => rfl⟩
  | @ask p c cause next arises keeps rest ih =>
    obtain ⟨less, ht⟩ := need_lt arises keeps hd hn
    obtain ⟨below, answer, made, answers⟩ := answered c ht (by omega)
    have kept : p.Keeps answer.2 := keeps.trans made.keeps
    have hu := Nat.mul_le_mul_right (document.size + 1) (unknown_le texts kept)
    obtain ⟨more, reply, made', replies⟩ :=
      ih answer made.keeps (by unfold need at bound ⊢; omega)
    refine ⟨.cons cause c below more, reply, ⟨arises, keeps, next, answer, rfl, made, made'⟩,
      fun bottom extra => ?_⟩
    change next (c.reply _) _ = reply
    rw [answers, replies]

/-- A question is answered within the depth that it needs. -/
theorem Question.answered (hd : document.texts.toFinset ⊆ texts) (depth : Nat) :
    ∀ c : Question, c.node.texts.toFinset ⊆ texts →
      need document texts c.node c.state ≤ depth → c.Answered document depth := by
  induction depth with
  | zero =>
    intro c _ bound
    have := c.node.size_pos
    unfold need at bound
    omega
  | succ depth ih =>
    intro c hn bound
    obtain ⟨calls, answer, made, answers⟩ :=
      (asking_resolveForm document c.site c.node c.state).ends ih hd hn bound
    refine ⟨calls, answer, made, fun bottom extra => ?_⟩
    rw [show depth + 1 + extra = depth + extra + 1 by omega]
    exact answers bottom extra

/-- The depth that is needed is within the bound of the resolution. -/
theorem need_le_depthBound (document node : Json) (p : Progress) :
    need document (document.texts.toFinset ∪ node.texts.toFinset) node p ≤
      depthBound document node := by
  have hu : unknown (document.texts.toFinset ∪ node.texts.toFinset) p ≤
      document.size + node.size :=
    calc unknown (document.texts.toFinset ∪ node.texts.toFinset) p
        ≤ (document.texts.toFinset ∪ node.texts.toFinset).card := Finset.card_filter_le _ _
      _ ≤ document.texts.toFinset.card + node.texts.toFinset.card := Finset.card_union_le _ _
      _ ≤ document.texts.length + node.texts.length :=
        Nat.add_le_add (List.toFinset_card_le _) (List.toFinset_card_le _)
      _ ≤ document.size + node.size :=
        Nat.add_le_add document.length_texts_le node.length_texts_le
  have hm := Nat.mul_le_mul_right (document.size + 1) hu
  unfold need depthBound
  nlinarith

theorem Question.reply_resolveNode (document : Json) (c : Question) :
    c.reply (resolveNode document) =
      c.reply (unrolled document (fun _ _ => fail (.misuse .endless))
        (depthBound document c.node + 0)) := by
  rw [Nat.add_zero, ← resolveWithin_eq_unrolled, Question.reply, Question.reply, resolveNode]

/-- The resolution of a node is that up to any depth from the bound on, whatever is at the
bottom. -/
theorem Question.resolved (document : Json) (c : Question) :
    ∃ calls : Calls, calls.Made document c.node c.state
      (fun self => c.reply (resolveForm document self)) (c.reply (resolveNode document)) ∧
      ∀ bottom extra, c.reply (unrolled document bottom (depthBound document c.node + extra)) =
        c.reply (resolveNode document) := by
  obtain ⟨calls, answer, made, answers⟩ :=
    Question.answered Finset.subset_union_left (depthBound document c.node) c
      Finset.subset_union_right (need_le_depthBound document c.node c.state)
  have reply : c.reply (resolveNode document) = answer :=
    (c.reply_resolveNode document).trans (answers _ 0)
  exact ⟨calls, reply ▸ made, fun bottom extra => (answers bottom extra).trans reply.symm⟩

/-- A computation that asks the resolution of nodes makes finitely many calls. -/
theorem Asks.made (h : Asks document node p F) :
    ∃ calls : Calls, calls.Made document node p F (F (resolveNode document)) := by
  induction h with
  | done keeps => exact ⟨.nil, rfl, keeps⟩
  | @ask p c cause next arises keeps rest ih =>
    obtain ⟨below, made, -⟩ := c.resolved document
    obtain ⟨more, made'⟩ := ih _ made.keeps
    exact ⟨.cons cause c below more, arises, keeps, next, _, rfl, made, made'⟩

namespace Component

/-- More rounds than there are aliases make no difference. -/
theorem registerAliases_eq {n k : Nat} {pending : List (Entry × Ref)} (hn : pending.length ≤ n)
    (hk : pending.length ≤ k) : registerAliases n pending = registerAliases k pending := by
  induction n generalizing k pending with
  | zero =>
    obtain rfl := List.eq_nil_of_length_eq_zero (Nat.le_zero.1 hn)
    cases k <;> rfl
  | succ n ih =>
    cases pending with
    | nil => cases k <;> rfl
    | cons pair rest =>
      obtain ⟨k, rfl⟩ : ∃ j, k = j + 1 := ⟨k - 1, by simp at hk; omega⟩
      have run (p : Progress) : (registerAliases (n + 1) (pair :: rest)).run.run p =
          (registerAliases (k + 1) (pair :: rest)).run.run p := by
        rw [registerAliases, registerAliases, run_bind_eq, run_bind_eq]
        case x_2 | x_2 => simp
        generalize hr : (aliasRound (pair :: rest)).run.run p = round
        obtain ⟨_ | kept, s⟩ := round
        · rfl
        obtain ⟨done, -, perm⟩ := aliasRound_runs hr
        cases kept with
        | nil => rfl
        | cons first others =>
          simp only [Upshot.bind]
          split
          · rfl
          next same =>
          have length := perm.length_eq
          simp only [List.length_append, List.length_cons] at length hn hk same
          rw [ih (k := k) (by rw [List.length_cons]; omega) (by rw [List.length_cons]; omega)]
      exact funext run

/-- A reservation forgets no key, and afterwards all components have one. -/
theorem keys_reserved (es : List Entry) (r : Registry) :
    Dict.keys r.named ⊆ Dict.keys (es.foldl reserved r).named ∧
      ∀ e ∈ es, e.key ∈ Dict.keys (es.foldl reserved r).named := by
  induction es generalizing r with
  | nil => exact ⟨List.Subset.refl _, by simp⟩
  | cons e es ih =>
    obtain ⟨kept, known⟩ := Registry.keys_reserve (r := r) e.key (wanted r e)
    obtain ⟨kept', all⟩ := ih (reserved r e)
    refine ⟨List.Subset.trans kept kept', fun d hd => ?_⟩
    obtain rfl | hd := List.mem_cons.1 hd
    · exact kept' known
    · exact all d hd

/-- The collection of components makes finitely many calls, none of which follows the reference of
a component. -/
theorem collect_ends (document : Json) (scope : Scope) (p : Progress) :
    ∃ calls : Calls, calls.Made document document p
      (fun self => (collect document self scope).run.run p)
      ((collect document (resolveNode document) scope).run.run p) ∧
      ∀ text ∈ calls.followed, Undeclared document text := by
  have declaring : Asking document document fun _ => declared document := asking_declared
  have keeps := (declaring p).keeps (fun _ _ => fail (.misuse .endless)) fun c => .refl c.state
  simp only [collect, run_bind_eq (declared document)]
  generalize hr : (declared document).run.run p = start at keeps
  obtain ⟨_ | es, s⟩ := start
  · exact ⟨.nil, ⟨rfl, keeps⟩, by simp [Calls.followed]⟩
  obtain ⟨rfl, rfl⟩ := declared_runs hr
  simp only [Upshot.bind, run_bind_eq ((listed document).forM reserve), reserve_forM_run]
  obtain ⟨kept, known⟩ := keys_reserved (listed document) s.registry
  generalize ht : { s with registry := (listed document).foldl reserved s.registry } = t
  have asking : Asking document document fun self => (do
      let resolved ← resolveEach self scope (listed document)
      resolved.forM register
      let pending := aliases resolved
      registerAliases pending.length pending) :=
    .bind (asking_each fun e he => inside_of_listed he) fun _ =>
      .bind asking_register fun _ => asking_aliases
  obtain ⟨calls, made⟩ := (asking t).made
  refine ⟨calls, made.mono (ht ▸ kept), fun text hf e he hk => ?_⟩
  exact (made.followed.2 text hf).1 (hk ▸ ht ▸ known e he)

end Component

/-- The resolution of a node and the collection of components end, whatever the state and whatever
refers to what: they make finitely many calls. Each call is about a strictly smaller part of the
node of its caller, or follows a reference. No reference is followed twice, none that has a name
already, and none to a component. So what is beyond the bound on the depth makes no difference,
and neither do more rounds for aliases than there are aliases. -/
theorem resolution_ends (document : Json) :
    (∀ site node p, ∃ calls : Calls, calls.Made document node p
      (fun self => (resolveForm document self site node).run.run p)
      ((resolveNode document site node).run.run p) ∧
      calls.followed.Nodup ∧ ∀ text ∈ calls.followed, text ∉ Dict.keys p.registry.named) ∧
    (∀ scope p, ∃ calls : Calls, calls.Made document document p
      (fun self => (Component.collect document self scope).run.run p)
      ((Component.collect document (resolveNode document) scope).run.run p) ∧
      calls.followed.Nodup ∧ ∀ text ∈ calls.followed,
        text ∉ Dict.keys p.registry.named ∧ Component.Undeclared document text) ∧
    (∀ bottom site node extra,
      unrolled document bottom (depthBound document node + extra) site node =
        resolveNode document site node) ∧
    ∀ pending extra, Component.registerAliases (pending.length + extra) pending =
      Component.registerAliases pending.length pending := by
  refine ⟨fun site node p => ?_, fun scope p => ?_, fun bottom site node extra => ?_,
    fun pending extra => Component.registerAliases_eq (Nat.le_add_right _ _) (Nat.le_refl _)⟩
  · obtain ⟨calls, made, -⟩ := Question.resolved document ⟨site, node, p⟩
    obtain ⟨nodup, keys⟩ := made.followed
    exact ⟨calls, made, nodup, fun text ht => (keys text ht).1⟩
  · obtain ⟨calls, made, undeclared⟩ := Component.collect_ends document scope p
    obtain ⟨nodup, keys⟩ := made.followed
    exact ⟨calls, made, nodup, fun text ht => ⟨(keys text ht).1, undeclared text ht⟩⟩
  · refine funext fun p => ?_
    obtain ⟨-, -, answers⟩ := Question.resolved document ⟨site, node, p⟩
    exact answers bottom extra

end ApiGraph
