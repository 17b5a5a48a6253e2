import MapBackend.Marketplaces.AvitoTree

/-!
Walks of a stored tree.
-/

namespace MapBackend.Marketplaces.AvitoTree
open MapBackend.Core MapBackend.Library MapBackend.Library.Program MapBackend.Library.StackWalk

/-! ## Document order -/

def pathName (node : Json) : Text :=
  match field nameKey node with
  | .text name => name
  | _ => []

mutual

def visitsNode (parent : List Text) (depth : ℕ) : Json → List Visit
  | .object entries => ⟨.object entries, parent ++ [pathName (.object entries)], depth⟩ ::
      visitsEntries (parent ++ [pathName (.object entries)]) (depth + 1) entries
  | node => [⟨node, parent ++ [pathName node], depth⟩]

def visitsEntries (parent : List Text) (depth : ℕ) : List (Text × Json) → List Visit
  | [] => []
  | (key, value) :: rest => if key = childrenKey then visitsValue parent depth value else visitsEntries parent depth rest

def visitsValue (parent : List Text) (depth : ℕ) : Json → List Visit
  | .list items => visitsAll parent depth items
  | _ => []

def visitsAll (parent : List Text) (depth : ℕ) : List Json → List Visit
  | [] => []
  | node :: rest => visitsNode parent depth node ++ visitsAll parent depth rest

end

def documentOrder (tree : List Json) : List Visit := visitsAll [] 1 tree

theorem visitsAll_append (parent : List Text) (depth : ℕ) (first second : List Json) :
    visitsAll parent depth (first ++ second) = visitsAll parent depth first ++ visitsAll parent depth second := by
  induction first with
  | nil => rw [List.nil_append, visitsAll, List.nil_append]
  | cons _ _ ih => rw [List.cons_append, visitsAll, visitsAll, ih, List.append_assoc]

def ChildrenAre (node : Json) (kids : List Json) : Prop :=
  (field childrenKey node = .null ∧ kids = []) ∨ field childrenKey node = .list kids

variable {kids : List Json} {node : Json}

theorem storedChildren_ok {message : String} :
    storedChildren message node = .ok kids ↔ ChildrenAre node kids := by
  unfold storedChildren ChildrenAre
  cases field childrenKey node <;> simp [eq_comm]

theorem visitsEntries_find (parent : List Text) (depth : ℕ) (entries : List (Text × Json)) :
    visitsEntries parent depth entries = visitsValue parent depth (field childrenKey (.object entries)) := by
  induction entries with
  | nil => rfl
  | cons entry _ ih =>
    obtain ⟨key, _⟩ := entry
    rw [visitsEntries]
    by_cases here : key = childrenKey
    · simp [here, field, Json.get]
    · rw [if_neg here, ih]
      simp [here, field, Json.get]

theorem visitsNode_of_children (object : node.isObject = true)
    (are : ChildrenAre node kids) (parent : List Text) (depth : ℕ) :
    visitsNode parent depth node = ⟨node, parent ++ [pathName node], depth⟩ ::
      visitsAll (parent ++ [pathName node]) (depth + 1) kids := by
  cases node with
  | object =>
    rw [visitsNode, visitsEntries_find]
    rcases are with ⟨none_given, rfl⟩ | given
    · rw [none_given, visitsValue, visitsAll]
      simp
    · rw [given, visitsValue]
  | _ => cases object

/-! ## Stored trees -/

inductive Stored : Json → Prop
  | node {value : Json} {kids : List Json} (object : value.isObject = true) (are : ChildrenAre value kids)
      (below : ∀ kid ∈ kids, Stored kid) : Stored value

def HasName (node : Json) : Prop := nodeName node = .ok (pathName node)

theorem nodeName_ok {name : Text} (h : nodeName node = .ok name) : name = pathName node := by
  unfold nodeName at h
  unfold pathName
  cases is : field nameKey node <;> simp_all

variable {limits : Limits} {pending : Pending}

theorem checkStored_ok {seen : ℕ} {name : Text}
    (h : checkStored limits pending seen = .ok (name, kids)) :
    pending.node.isObject = true ∧ pending.depth ≤ limits.maxDepth ∧ seen + 1 ≤ limits.maxNodes ∧
      name = pathName pending.node ∧ ChildrenAre pending.node kids := by
  unfold checkStored at h
  split at h
  · cases h
  · rename_i object
    split at h
    · cases h
    · rename_i shallow
      split at h
      · cases h
      · rename_i fits
        obtain ⟨_, named, rest⟩ := bind_ok.mp h
        obtain ⟨_, below, last⟩ := bind_ok.mp rest
        obtain ⟨rfl, rfl⟩ := Prod.mk.inj (pure_ok.mp last)
        exact ⟨by simpa using object, Nat.le_of_not_lt shallow, Nat.le_of_not_lt fits, nodeName_ok named,
          storedChildren_ok.mp below⟩

theorem visitStored_ok {below : List Pending} {s t : List Visit}
    (h : visitStored limits pending s = .ok below t) :
    pending.node.isObject = true ∧ ∃ kids, ChildrenAre pending.node kids ∧
      below = kids.map (fun kid => ⟨kid, pending.parent ++ [pathName pending.node], pending.depth + 1⟩) ∧
      t = s ++ [⟨pending.node, pending.parent ++ [pathName pending.node], pending.depth⟩] := by
  unfold visitStored at h
  cases checked : checkStored limits pending s.length with
  | error => simp [checked] at h
  | ok found =>
    obtain ⟨_, kids⟩ := found
    obtain ⟨object, -, -, rfl, are⟩ := checkStored_ok checked
    simp only [checked, EStateM.Result.ok.injEq] at h
    exact ⟨object, kids, are, h.1.symm, h.2.symm⟩

theorem visitStored_uses (limits : Limits) (pending : Pending) (s : List Visit) (below : List Pending) (t : List Visit)
    (h : visitStored limits pending s = .ok below t) : limits.maxNodes - t.length + 1 ≤ limits.maxNodes - s.length := by
  obtain ⟨-, _, -, -, yielded⟩ := visitStored_ok h
  have fits : s.length + 1 ≤ limits.maxNodes := by
    unfold visitStored at h
    cases checked : checkStored limits pending s.length with
    | error => simp [checked] at h
    | ok => exact (checkStored_ok checked).2.2.1
  have longer : t.length = s.length + 1 := by rw [yielded, List.length_append, List.length_singleton]
  omega

theorem yielded_of_traverses {pendings : List Pending} {s t : List Visit}
    (h : Traverses (visitStored limits) s pendings t) {nodes : List Json} {parent : List Text} {depth : ℕ}
    (are : pendings = nodes.map fun node => ⟨node, parent, depth⟩) :
    (∀ node ∈ nodes, Stored node) ∧ t = s ++ visitsAll parent depth nodes := by
  induction h generalizing nodes parent depth with
  | nil =>
    obtain rfl := List.map_eq_nil_iff.mp are.symm
    simp [visitsAll]
  | cons visited _ _ ihInside ihOutside =>
    obtain ⟨node, _, rfl, rfl, rfl⟩ := List.map_eq_cons_iff.mp are.symm
    obtain ⟨object, _, children, rfl, rfl⟩ := visitStored_ok visited
    obtain ⟨below, rfl⟩ := ihInside rfl
    obtain ⟨others, rfl⟩ := ihOutside rfl
    constructor
    · intro other mem
      rcases List.mem_cons.mp mem with rfl | later
      · exact .node object children below
      · exact others other later
    · rw [visitsAll, visitsNode_of_children object children]
      simp

theorem walkStoredTree_ok {nodes : Json} {visits : List Visit} (h : walkStoredTree limits nodes = .ok visits) :
    ∃ items, nodes = .list items ∧ (∀ node ∈ items, Stored node) ∧ visits = documentOrder items := by
  unfold walkStoredTree at h
  cases nodes with
  | list items =>
    refine ⟨items, rfl, ?_⟩
    cases walked : walk (visitStored limits) limits.nodesExceeded limits.maxNodes
        (items.map fun node => (⟨node, [], 1⟩ : Pending)) [] with
    | error failure left => simp [walked] at h
    | ok u t =>
      simp only [walked, Except.ok.injEq] at h
      obtain ⟨all, rfl⟩ := yielded_of_traverses (traverses_of_walk walked) rfl
      exact ⟨all, by rw [← h, List.nil_append, documentOrder]⟩
  | _ => cases h

def Walks (limits : Limits) (parent : List Text) (depth : ℕ) (nodes : List Json) : Prop :=
  ∀ s : List Visit, (∀ visit ∈ visitsAll parent depth nodes, HasName visit.node ∧ visit.depth ≤ limits.maxDepth) →
    s.length + (visitsAll parent depth nodes).length ≤ limits.maxNodes →
    Traverses (visitStored limits) s (nodes.map fun node => ⟨node, parent, depth⟩) (s ++ visitsAll parent depth nodes)

theorem Walks.nil (limits : Limits) (parent : List Text) (depth : ℕ) : Walks limits parent depth [] := by
  intro s _ _
  rw [visitsAll, List.append_nil]
  exact .nil s

theorem checkStored_of {seen : ℕ}
    (object : pending.node.isObject = true) (shallow : pending.depth ≤ limits.maxDepth) (fits : seen + 1 ≤ limits.maxNodes)
    (named : HasName pending.node) (are : ChildrenAre pending.node kids) :
    checkStored limits pending seen = .ok (pathName pending.node, kids) := by
  unfold checkStored
  rw [if_neg (by simp [object]), if_neg (Nat.not_lt.mpr shallow), if_neg (Nat.not_lt.mpr fits), named, storedChildren_ok.mpr are]
  rfl

theorem Walks.cons {parent : List Text} {depth : ℕ} {kids rest : List Json}
    (object : node.isObject = true) (are : ChildrenAre node kids)
    (below : Walks limits (parent ++ [pathName node]) (depth + 1) kids) (others : Walks limits parent depth rest) :
    Walks limits parent depth (node :: rest) := by
  intro s allowed fits
  rw [visitsAll, visitsNode_of_children object are] at allowed fits ⊢
  simp only [List.cons_append, List.length_cons, List.length_append] at fits
  obtain ⟨named, shallow⟩ := allowed ⟨node, parent ++ [pathName node], depth⟩ (by simp)
  have visited : visitStored limits ⟨node, parent, depth⟩ s = .ok (kids.map fun kid => ⟨kid, parent ++ [pathName node], depth + 1⟩)
      (s ++ [⟨node, parent ++ [pathName node], depth⟩]) := by
    unfold visitStored
    rw [checkStored_of object shallow (by omega) named are]
  have inside := below (s ++ [⟨node, parent ++ [pathName node], depth⟩])
    (fun visit mem => allowed visit (by simp [mem])) (by simp only [List.length_append, List.length_singleton]; omega)
  have outside := others (s ++ [⟨node, parent ++ [pathName node], depth⟩] ++ visitsAll (parent ++ [pathName node]) (depth + 1) kids)
    (fun visit mem => allowed visit (by simp [mem])) (by simp only [List.length_append, List.length_singleton]; omega)
  simpa using Traverses.cons visited inside outside

theorem Stored.walks (stored : Stored node) :
    ∀ (parent : List Text) (depth : ℕ) (rest : List Json), Walks limits parent depth rest → Walks limits parent depth (node :: rest) := by
  induction stored with
  | node object are below ih =>
    intro parent depth rest others
    refine Walks.cons object are ?_ others
    rename_i kids
    clear are below others
    induction kids with
    | nil => exact Walks.nil limits _ _
    | cons kid _ ihMore =>
      exact ih kid List.mem_cons_self _ _ _ (ihMore fun other mem => ih other (List.mem_cons_of_mem kid mem))

theorem walkStoredTree_of_stored {tree : List Json} (stored : ∀ node ∈ tree, Stored node)
    (named : ∀ visit ∈ documentOrder tree, HasName visit.node) (shallow : ∀ visit ∈ documentOrder tree, visit.depth ≤ limits.maxDepth)
    (fits : (documentOrder tree).length ≤ limits.maxNodes) : walkStoredTree limits (.list tree) = .ok (documentOrder tree) := by
  have walks : Walks limits [] 1 tree := by
    clear named shallow fits
    induction tree with
    | nil => exact Walks.nil limits [] 1
    | cons node rest ih =>
      exact (stored node List.mem_cons_self).walks [] 1 rest (ih fun other mem => stored other (List.mem_cons_of_mem node mem))
  have traverses := walks [] (fun visit mem => ⟨named visit mem, shallow visit mem⟩) (by simpa [documentOrder] using fits)
  rw [List.nil_append] at traverses
  have walked : walk (visitStored limits) limits.nodesExceeded limits.maxNodes (tree.map fun node => (⟨node, [], 1⟩ : Pending)) [] = _ :=
    walk_of_traverses (visitStored_uses limits) traverses (Nat.sub_le limits.maxNodes 0)
  rw [walkStoredTree, walked, documentOrder]

/-! ## The branches of a stored tree -/

def Holds (good : Text → List Json → Prop) (result : List (Text × List Json)) : Prop :=
  ∀ slug kids, Dictionary.get slug result = some kids → good slug kids

def HasBranch (shown : Json → Text) (tree : List Json) (slug : Text) (kids : List Json) : Prop :=
  ∃ visit ∈ documentOrder tree, strOrEmpty shown (field slugKey visit.node) = slug ∧ keptChildren visit.node = kids

theorem Holds.record {shown : Json → Text} {good : Text → List Json → Prop} {result : List (Text × List Json)} {visit : Visit}
    (all : Holds good result) (here : good (strOrEmpty shown (field slugKey visit.node)) (keptChildren visit.node)) :
    Holds good (recordSlug shown result visit) := by
  unfold recordSlug
  by_cases given : truthy (field slugKey visit.node) = true
  · intro slug kids found
    simp only [given, if_true, Dictionary.get_set] at found
    split at found
    · rename_i same
      cases found
      rw [strOrEmpty, if_pos given] at here
      exact same ▸ here
    · exact all slug kids found
  · simpa only [given, Bool.false_eq_true, if_false] using all

theorem previousChildren_branches {shown : Json → Text} {nodes : Json} {result : List (Text × List Json)}
    (h : previousChildrenBySlug shown limits nodes = .ok result) :
    ∃ items, nodes = .list items ∧ Holds (HasBranch shown items) result := by
  obtain ⟨visits, walked, made⟩ := Library.bind_ok.mp h
  obtain rfl := Library.pure_ok.mp made
  obtain ⟨items, rfl, -, rfl⟩ := walkStoredTree_ok walked
  have fold (visits : List Visit) (among : ∀ visit ∈ visits, visit ∈ documentOrder items) (result : List (Text × List Json))
      (start : Holds (HasBranch shown items) result) : Holds (HasBranch shown items) (visits.foldl (recordSlug shown) result) := by
    induction visits generalizing result with
    | nil => exact start
    | cons visit _ ih =>
      exact ih (fun other mem => among other (List.mem_cons_of_mem visit mem)) _
        (start.record ⟨visit, among visit List.mem_cons_self, rfl, rfl⟩)
  exact ⟨items, rfl, fold _ (fun _ mem => mem) [] fun slug kids found => by cases found⟩

end MapBackend.Marketplaces.AvitoTree
