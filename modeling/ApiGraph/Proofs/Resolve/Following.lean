import ApiGraph.Proofs.Resolve.Carrying

/-! The references that are followed while the nodes of operations are dereferenced, each with the
registry of that moment. If they lead to the same targets in another document, and so do the
declared keys, then the paths are resolved in the same way on the other document. -/

namespace ApiGraph

open Resolving

/-- The references that a chain follows from a node on, unless they are registered. -/
def chased (document : Json) (registry : Registry) : Nat → Json → List String
  | 0, _ => []
  | fuel + 1, node =>
    match node.get? "$ref" with
    | some (.str ref) =>
      if !Pointer.isLocal ref || (registeredNode registry ref).isSome then []
      else ref :: (Pointer.resolve document ref).elim [] (chased document registry fuel)
    | _ => []

/-- The responses of an operation are dereferenced one after the other, each with the registry that
the one before left. -/
inductive Response.Asked (document : Json) (self : Resolver) (scope : Scope) (o : Occasion) :
    List (String × Json) → Progress → Registry → Json → Prop
  | here {status node rest p} :
    Asked document self scope o ((status, node) :: rest) p p.registry node
  | later {status response rest p here s r node}
    (first : Runs (resolveStatus document self (scope.down ["responses", status]) o status response)
      p here s) (asked : Asked document self scope o rest s r node) :
    Asked document self scope o ((status, response) :: rest) p r node

/-- What an operation begins with: its name, its parameters, and what is taken over. -/
structure Method.Opening where
  name : String
  header : Header
  groups : Parameter.Groups
  pathObject : Option Ref
  queryObject : Option Ref
  headerObject : Option Ref

namespace Method

/-- The parameters of an operation, before its responses. -/
def resolveOpening (document : Json) (self : Resolver) (scope : Scope) (verb : Verb) (path : String)
    (item operation : Json) : Resolving Opening := do
  if !operation.isObject then malformed .operationNotMapping scope.location
  let name ← claimName (← wantedName verb.word path (operation.get "operationId"))
  let tags ← itemsOf (orElse (operation.get "tags") (.arr []))
  if !item.isObject then fail (.misuse .noMember)
  let params ← Parameter.merge document scope (orElse (item.get "parameters") (.arr []))
    (orElse (operation.get "parameters") (.arr []))
  let groups ← Parameter.resolveAll self scope params
  let header ← fit (readHeader operation tags (securityOf document operation))
  let pathObject ← Parameter.gather scope groups.path s!"{name}Path"
  let queryObject ← Parameter.gather scope groups.query s!"{name}Query"
  let headerObject ← Parameter.gather scope groups.header s!"{name}Headers"
  return ⟨name, header, groups, pathObject, queryObject, headerObject⟩

/-- The responses and request bodies of an operation, after its parameters. -/
def resolveRest (document : Json) (self : Resolver) (scope : Scope) (verb : Verb) (path : String)
    (operation : Json) (a : Opening) : Resolving Method := do
  let o : Occasion := ⟨a.header.tags.head?, path, verb.word⟩
  let responses ← Response.resolveAll document self scope o
    (orElse (operation.get "responses") (.obj []))
  let requestBodies ←
    if (operation.get "requestBody").isNull then pure []
    else RequestBody.resolveAll document self scope o (operation.get "requestBody")
  return {
    name := a.name
    kind := .method
    verb := verb
    path := path
    operationId := a.header.operationId
    summary := a.header.summary
    description := a.header.description
    tags := a.header.tags
    deprecated := (operation.get "deprecated").truthy
    security := a.header.security
    pathParams := a.groups.path
    queryParams := a.groups.query
    headerParams := a.groups.header
    pathObject := a.pathObject
    queryObject := a.queryObject
    headerObject := a.headerObject
    responses := responses
    requestBodies := requestBodies }

theorem resolve_eq (document : Json) (self : Resolver) (scope : Scope) (verb : Verb) (path : String)
    (item operation : Json) : resolve document self scope verb path item operation =
      resolveOpening document self scope verb path item operation >>=
        resolveRest document self scope verb path operation := by
  cases ho : operation.isObject <;> cases hi : item.isObject <;>
    cases hb : (operation.get "requestBody").isNull <;>
    simp only [resolve, resolveOpening, resolveRest, ho, hi, hb, bind_assoc, pure_bind,
      Bool.not_true, Bool.not_false, if_true, Bool.false_eq_true, if_false]

/-- What an operation dereferences: its parameters and those of its path, its responses, and its
request body. -/
inductive Asked (document : Json) (self : Resolver) (scope : Scope) (verb : Verb) (path : String)
    (item operation : Json) (p : Progress) : Registry → Json → Prop
  | parameter {holder node : Json} {items : List Json} (holds : holder = item ∨ holder = operation)
    (parts : (orElse (holder.get "parameters") (.arr [])).parts? = some items)
    (mem : node ∈ items) :
    Asked document self scope verb path item operation p p.registry node
  | response {a : Opening} {s : Progress} {entries : List (String × Json)} {r : Registry}
    {node : Json}
    (opened : Runs (resolveOpening document self scope verb path item operation) p a s)
    (responses : orElse (operation.get "responses") (.obj []) = .obj entries)
    (asked : Response.Asked document self scope ⟨a.header.tags.head?, path, verb.word⟩ entries s r
      node) : Asked document self scope verb path item operation p r node
  | body {a : Opening} {s t : Progress} {rs : List Response}
    (opened : Runs (resolveOpening document self scope verb path item operation) p a s)
    (responses : Runs (Response.resolveAll document self scope
      ⟨a.header.tags.head?, path, verb.word⟩ (orElse (operation.get "responses") (.obj []))) s rs t)
    (offered : (operation.get "requestBody").isNull = false) :
    Asked document self scope verb path item operation p t.registry (operation.get "requestBody")

end Method

namespace Walk

/-- What the operations of a path dereference, verb by verb. -/
inductive OperationsAsked (document : Json) (self : Resolver) (scope : Scope) (path : String)
    (item : Json) : List Verb → Progress → Registry → Json → Prop
  | here {verb : Verb} {rest : List Verb} {p : Progress} {operation node : Json} {r : Registry}
    (there : (item.get verb.word).nonNull = some operation)
    (asked : Method.Asked document self (scope.down [verb.word]) verb path item operation p r
      node) :
    OperationsAsked document self scope path item (verb :: rest) p r node
  | skip {verb : Verb} {rest : List Verb} {p : Progress} {node : Json} {r : Registry}
    (none : (item.get verb.word).nonNull = none)
    (asked : OperationsAsked document self scope path item rest p r node) :
    OperationsAsked document self scope path item (verb :: rest) p r node
  | later {verb : Verb} {rest : List Verb} {p s : Progress} {operation node : Json} {r : Registry}
    {m : Method} (there : (item.get verb.word).nonNull = some operation)
    (first : Runs (Method.resolve document self (scope.down [verb.word]) verb path item operation) p
      m s)
    (asked : OperationsAsked document self scope path item rest
      { s with notices := s.notices ++ [.entity [.method] (.method m)] } r node) :
    OperationsAsked document self scope path item (verb :: rest) p r node

/-- What the paths of a document dereference, one after the other: each its item, and then what its
operations dereference. -/
inductive Asked (document : Json) (self : Resolver) (scope : Scope) :
    List (String × Json) → Progress → Registry → Json → Prop
  | item {name : String} {node : Json} {rest : List (String × Json)} {p : Progress} :
    Asked document self scope ((name, node) :: rest) p p.registry node
  | operations {name : String} {raw item node : Json} {rest : List (String × Json)} {p : Progress}
    {r : Registry}
    (stands : Runs (dereference document (scope.relocated ["paths", name]) raw) p item p)
    (asked : OperationsAsked document self (scope.relocated ["paths", name]) name item Verb.all p r
      node) :
    Asked document self scope ((name, raw) :: rest) p r node
  | later {name : String} {raw node : Json} {rest : List (String × Json)} {p s : Progress}
    {r : Registry} {walked : Path × List Method}
    (first : Runs (path document self scope name raw) p walked s)
    (asked : Asked document self scope rest s r node) :
    Asked document self scope ((name, raw) :: rest) p r node

end Walk

/-- The nodes of an operation that may stand for others. -/
def Method.nodes (item operation : Json) : List Json :=
  ((orElse (item.get "parameters") (.arr [])).parts?).getD [] ++
    ((orElse (operation.get "parameters") (.arr [])).parts?).getD [] ++
    (match orElse (operation.get "responses") (.obj []) with
    | .obj entries => entries.map Prod.snd
    | _ => []) ++ [operation.get "requestBody"]

/-- The nodes of some paths that may stand for others. -/
def Walk.nodes (entries : List (String × Json)) : List Json :=
  entries.flatMap fun entry =>
    entry.2 :: Verb.all.flatMap fun verb => Method.nodes entry.2 (entry.2.get verb.word)

variable {document document' node : Json} {registry : Registry} {scope : Scope} {p q : Progress}

theorem dereference_plain {v : Json} (plain : node.get? "$ref" = none)
    (h : Runs (dereference document scope node) p v q) : v = node := by
  obtain ⟨-, hv⟩ := dereference_runs h
  unfold followChain at hv
  split at hv
  · cases hv
  · rw [plain] at hv
    exact (Except.ok.inj hv).symm

theorem Response.Asked.mem {self : Resolver} {o : Occasion} {entries : List (String × Json)}
    (h : Asked document self scope o entries p registry node) : node ∈ entries.map Prod.snd := by
  induction h with
  | here => exact List.mem_cons_self
  | later _ _ ih => exact List.mem_cons_of_mem _ ih

theorem Method.Asked.mem {self : Resolver} {verb : Verb} {path : String} {item operation : Json}
    (h : Asked document self scope verb path item operation p registry node) :
    node ∈ nodes item operation := by
  unfold nodes
  simp only [List.mem_append, List.mem_singleton]
  cases h with
  | parameter holds parts mem =>
    rcases holds with rfl | rfl
    · exact .inl (.inl (.inl (by rwa [parts])))
    · exact .inl (.inl (.inr (by rwa [parts])))
  | response _ responses asked =>
    rw [responses]
    exact .inl (.inr asked.mem)
  | body => exact .inr rfl

/-- If no path stands for another one, only nodes of the document itself are dereferenced. -/
theorem Walk.Asked.mem {self : Resolver} {entries : List (String × Json)}
    (plain : ∀ entry ∈ entries, entry.2.get? "$ref" = none)
    (h : Asked document self scope entries p registry node) : node ∈ nodes entries := by
  have verbs {scope : Scope} {name : String} {item : Json} {vs : List Verb} {p : Progress}
      {registry : Registry} {node : Json}
      (h : OperationsAsked document self scope name item vs p registry node) :
      node ∈ vs.flatMap fun verb => Method.nodes item (item.get verb.word) := by
    induction h with
    | here there asked =>
      obtain rfl := Json.eq_of_nonNull there
      exact List.mem_append_left _ asked.mem
    | skip _ _ ih => exact List.mem_append_right _ ih
    | later _ _ _ ih => exact List.mem_append_right _ ih
  induction h with
  | item => exact List.mem_append_left _ List.mem_cons_self
  | @operations _ raw _ _ _ _ _ stands asked =>
    obtain rfl := dereference_plain (plain _ List.mem_cons_self) stands
    exact List.mem_append_left _ (List.mem_cons_of_mem _ (verbs asked))
  | later _ _ ih =>
    exact List.mem_append_right _ (ih fun entry he => plain entry (List.mem_cons_of_mem _ he))

/-- A chain that follows the same references to the same targets leads to the same node. -/
theorem followChain_agree {location : String} {fuel more : Nat} {v : Json} (hm : fuel ≤ more)
    (same : ∀ text ∈ chased document registry fuel node,
      Pointer.resolve document' text = Pointer.resolve document text)
    (h : followChain document registry location fuel node = .ok v) :
    followChain document' registry location more node = .ok v := by
  induction fuel generalizing more node with
  | zero => cases h
  | succ fuel ih =>
    obtain ⟨more, rfl⟩ : ∃ n, more = n + 1 := ⟨more - 1, by omega⟩
    unfold followChain at h ⊢
    split at h
    · cases h
    next ho =>
    rw [if_neg ho]
    split at h
    · exact h
    · next ref hr =>
      split at h
      · cases h
      next hl =>
      rw [if_neg hl]
      split at h
      · exact h
      next hf =>
      have links : chased document registry (fuel + 1) node =
          ref :: (Pointer.resolve document ref).elim [] (chased document registry fuel) := by
        simp [chased, hr, hf, show Pointer.isLocal ref = true by simpa using hl]
      rw [links] at same
      split at h
      · next target ht =>
        rw [same ref List.mem_cons_self, ht]
        refine ih (by omega) (fun text hc => same text (List.mem_cons_of_mem _ ?_)) h
        rw [ht]
        exact hc
      · cases h
    · cases h

/-- The links of the chain from a node lead to the same targets in both documents. -/
def LinksAgree (document document' : Json) (registry : Registry) (node : Json) : Prop :=
  ∀ text ∈ chased document registry (document.size + 2) node,
    Pointer.resolve document' text = Pointer.resolve document text

section

variable (larger : document.size ≤ document'.size)
include larger

theorem carries_dereference (agree : LinksAgree document document' p.registry node) :
    CarriesFrom document document' p (dereference document scope node)
      (dereference document' scope node) := by
  intro v q h
  obtain ⟨rfl, hv⟩ := dereference_runs h
  refine ⟨.refl _, fun _ => ?_⟩
  have hv' := followChain_agree (Nat.add_le_add_right larger 2) agree hv
  exact runs_bind.2 ⟨_, _, runs_registry.2 ⟨rfl, rfl⟩, runs_lift.2 ⟨hv', rfl⟩⟩

namespace Parameter

theorem carries_identity (agree : LinksAgree document document' p.registry node) :
    CarriesFrom document document' p (identity document scope node)
      (identity document' scope node) := by
  have follow : CarriesFrom document document' p (do
      let target ← dereference document scope node
      return (((target.get? "name").map Json.shown).getD "",
        ((target.get? "in").map Json.shown).getD "")) (do
      let target ← dereference document' scope node
      return (((target.get? "name").map Json.shown).getD "",
        ((target.get? "in").map Json.shown).getD "")) :=
    (carries_dereference larger agree).bind fun _ s _ => Carries.pure _ s
  unfold identity
  split
  · split
    · exact follow
    · exact Carries.pure _ p
  · exact follow

theorem carries_merge {own inherited : Json}
    (agree : ∀ v, v = inherited ∨ v = own → ∀ items, v.parts? = some items → ∀ node ∈ items,
      LinksAgree document document' p.registry node) :
    CarriesFrom document document' p (merge document scope inherited own)
      (merge document' scope inherited own) := by
  have parts {v : Json} {items : List Json} {q : Progress} (h : Runs (itemsOf v) p items q) :
      q = p ∧ v.parts? = some items := by
    unfold itemsOf at h
    split at h
    · next hv =>
      obtain ⟨rfl, rfl⟩ := runs_pure.1 h
      exact ⟨rfl, hv⟩
    · exact (runs_fail.1 h).elim
  have items (v : Json) : CarriesFrom document document' p (itemsOf v) (itemsOf v) :=
    .same fun _ _ h => (parts h).1 ▸ .refl p
  have asks : ∀ a b p q, Runs (identity document scope a) p b q → q = p :=
    fun _ _ _ _ => identity_runs
  refine (items own).bind fun os q ho => ?_
  obtain ⟨rfl, hos⟩ := parts ho
  refine (CarriesFrom.mapM asks fun node hn =>
    carries_identity larger (agree own (.inr rfl) os hos node hn)).bind fun overridden q hm => ?_
  obtain rfl := mapM_runs_same asks hm
  refine (items inherited).bind fun is q hi => ?_
  obtain ⟨rfl, his⟩ := parts hi
  refine .bind (.filterM (fun a b p q h => ?_) fun node hn => ?_) fun _ s _ => Carries.pure _ s
  · simp only [runs_bind, runs_pure] at h
    obtain ⟨_, _, hd, -, rfl⟩ := h
    exact identity_runs hd
  · refine .bind ?_ fun _ s _ => Carries.pure _ s
    exact carries_identity larger (agree inherited (.inl rfl) is his node hn)

end Parameter

section

variable {self self' : Resolver} (hself : self.Carries document document' self')
include hself

namespace Response

theorem carries_status {o : Occasion} {status : String}
    (agree : LinksAgree document document' p.registry node) :
    CarriesFrom document document' p (resolveStatus document self scope o status node)
      (resolveStatus document' self' scope o status node) := by
  refine (carries_dereference larger agree).bind fun v s _ => ?_
  refine (Header.carries_all hself _ s).bind fun headers t _ => ?_
  refine Carries.ite (fun _ => ?_) (fun _ => .bind .fit fun _ => .pure _) t
  exact .bind (.idle fun _ _ _ h => (membersOf_runs h).1) fun _ => carries_media hself _ _ _ _

theorem carries_each {o : Occasion} {entries : List (String × Json)}
    (agree : ∀ r node, Asked document self scope o entries p r node →
      LinksAgree document document' r node) :
    CarriesFrom document document' p (resolveEach document self scope o entries)
      (resolveEach document' self' scope o entries) := by
  induction entries generalizing p with
  | nil => exact Carries.pure _ p
  | cons entry rest ih =>
    refine (carries_status larger hself (agree _ _ .here)).bind fun here s first => ?_
    exact (ih fun r node asked => agree r node (.later first asked)).bind
      fun _ t _ => Carries.pure _ t

end Response

theorem RequestBody.carries_all {o : Occasion}
    (agree : LinksAgree document document' p.registry node) :
    CarriesFrom document document' p (resolveAll document self scope o node)
      (resolveAll document' self' scope o node) := by
  refine (carries_dereference larger agree).bind fun v s _ => ?_
  refine Carries.ite (fun _ => .pure _) (fun _ => ?_) s
  split
  · exact .ite (fun _ => .malformed_bind) fun _ => carries_media hself _ _ _
  · exact .malformed

namespace Method

variable {verb : Verb} {path : String} {item operation : Json}
  (secured : document'.get "security" = document.get "security")
include secured

theorem carries_opening
    (agree : ∀ r node, Asked document self scope verb path item operation p r node →
      LinksAgree document document' r node) :
    CarriesFrom document document' p (resolveOpening document self scope verb path item operation)
      (resolveOpening document' self' scope verb path item operation) := by
  have security : securityOf document' operation = securityOf document operation := by
    unfold securityOf
    split
    · rfl
    · simp only [secured]
  unfold resolveOpening
  rw [security]
  dsimp only
  split
  · exact Carries.malformed_bind p
  refine .bind (Carries.idle (fun _ _ _ h => (wantedName_runs h).1) p) fun wanted q hw => ?_
  obtain rfl := (wantedName_runs hw).1
  refine .bind (.same fun _ _ h => (claimName_runs h).2 ▸ .refl q) fun name s hn => ?_
  have kept : s.registry = q.registry := by rw [(claimName_runs hn).2]
  refine .bind (Carries.idle (fun _ _ _ => itemsOf_runs) s) fun tags t ht => ?_
  obtain rfl := itemsOf_runs ht
  split
  · exact Carries.fail_bind t
  refine .bind (Parameter.carries_merge larger fun v hv items hi node hn => ?_) fun params u _ => ?_
  · rw [kept]
    rcases hv with rfl | rfl
    · exact agree _ _ (.parameter (.inl rfl) hi hn)
    · exact agree _ _ (.parameter (.inr rfl) hi hn)
  refine (Parameter.carries_from hself 0 params _ u).bind fun groups v _ => ?_
  refine Carries.bind .fit (fun header => ?_) v
  have gathered (params : List Ref) (name : String) : Carries document document'
      (Parameter.gather scope params name) (Parameter.gather scope params name) :=
    Parameter.carries_gather params name
  exact .bind (gathered _ _) fun _ => .bind (gathered _ _) fun _ => .bind (gathered _ _) fun _ =>
    .pure _

theorem carries_resolve
    (agree : ∀ r node, Asked document self scope verb path item operation p r node →
      LinksAgree document document' r node) :
    CarriesFrom document document' p (resolve document self scope verb path item operation)
      (resolve document' self' scope verb path item operation) := by
  rw [resolve_eq, resolve_eq]
  refine (carries_opening larger hself secured agree).bind fun a s opened => ?_
  have responses : CarriesFrom document document' s
      (Response.resolveAll document self scope ⟨a.header.tags.head?, path, verb.word⟩
        (orElse (operation.get "responses") (.obj [])))
      (Response.resolveAll document' self' scope ⟨a.header.tags.head?, path, verb.word⟩
        (orElse (operation.get "responses") (.obj []))) := by
    unfold Response.resolveAll
    split
    · next entries he =>
      exact Response.carries_each larger hself fun r node asked =>
        agree r node (.response opened he asked)
    · exact Carries.malformed s
  refine responses.bind fun rs t hrs => ?_
  dsimp only
  split
  · exact (Carries.pure _ t).bind fun _ u _ => Carries.pure _ u
  · next offered =>
    refine .bind (RequestBody.carries_all larger hself ?_) fun _ u _ => Carries.pure _ u
    exact agree _ _ (.body opened hrs (by simpa using offered))

end Method

namespace Walk

variable {name : String} (secured : document'.get "security" = document.get "security")
include secured

theorem carries_operations {item : Json} {verbs : List Verb}
    (agree : ∀ r node, OperationsAsked document self scope name item verbs p r node →
      LinksAgree document document' r node) :
    CarriesFrom document document' p (operations document self scope name item verbs)
      (operations document' self' scope name item verbs) := by
  induction verbs generalizing p with
  | nil => exact Carries.pure _ p
  | cons verb rest ih =>
    unfold operations
    cases there : (item.get verb.word).nonNull with
    | none => exact ih fun r node asked => agree r node (.skip there asked)
    | some operation =>
      dsimp only
      refine .bind (Method.carries_resolve larger hself secured fun r node asked =>
        agree r node (.here there asked)) fun m s first => ?_
      refine (Carries.notify _ s).bind fun _ t noted => ?_
      obtain rfl := runs_notify.1 noted
      refine (ih fun r node asked => agree r node (.later there first asked)).bind ?_
      exact fun _ u _ => Carries.pure _ u

theorem carries_path {rest : List (String × Json)}
    (agree : ∀ r v, Asked document self scope ((name, node) :: rest) p r v →
      LinksAgree document document' r v) :
    CarriesFrom document document' p (path document self scope name node)
      (path document' self' scope name node) := by
  refine (carries_dereference larger (agree _ _ .item)).bind fun item q stands => ?_
  obtain rfl := (dereference_runs stands).1
  refine .bind (Carries.fit q) fun header s fits => ?_
  obtain ⟨-, rfl⟩ := runs_fit.1 fits
  refine (carries_operations larger hself secured fun r v asked =>
    agree r v (.operations stands asked)).bind fun methods t _ => ?_
  exact (Carries.notify _ t).bind fun _ u _ => Carries.pure _ u

/-- Paths are resolved in the same way, one after the other. -/
theorem carries_paths {entries : List (String × Json)}
    (agree : ∀ r v, Asked document self scope entries p r v → LinksAgree document document' r v) :
    CarriesFrom document document' p
      (entries.mapM fun entry => path document self scope entry.1 entry.2)
      (entries.mapM fun entry => path document' self' scope entry.1 entry.2) := by
  induction entries generalizing p with
  | nil => exact Carries.pure _ p
  | cons entry rest ih =>
    rw [List.mapM_cons, List.mapM_cons]
    refine (carries_path larger hself secured agree).bind fun walked s first => ?_
    refine (ih fun r v asked => agree r v (.later first asked)).bind ?_
    exact fun _ u _ => Carries.pure _ u

end Walk

end

end

end ApiGraph
