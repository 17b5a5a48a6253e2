import MapBackend.Marketplaces.AvitoTreeWalk

/-!
What a builder returns.
-/

namespace MapBackend.Marketplaces.AvitoTree
open MapBackend.Core MapBackend.Library MapBackend.Library.Program MapBackend.Library.StackWalk

variable {setup : Setup}

/-! ## The call budget -/

structure Pays (setup : Setup) (s t : Builder) : Prop where
  logged : t.used + s.calls.length = s.used + t.calls.length
  later : s.used ≤ t.used
  within : (t.used : ℤ) ≤ max (s.used : ℤ) setup.maximum

theorem Pays.refl (s : Builder) : Pays setup s s := ⟨rfl, Nat.le_refl _, le_max_left _ _⟩

theorem Pays.trans (s m t : Builder) (first : Pays setup s m) (second : Pays setup m t) : Pays setup s t where
  logged := by
    have before := first.logged
    have behind := second.logged
    omega
  later := first.later.trans second.later
  within := second.within.trans (max_le first.within (le_max_right _ _))

theorem Pays.calls_le {s t : Builder} (pays : Pays setup s t) :
    t.calls.length - s.calls.length ≤ (setup.maximum - s.used).toNat := by
  have logged := pays.logged
  have later := pays.later
  have within := pays.within
  omega

structure Asks (setup : Setup) (s t : Builder) : Prop extends Pays setup s t where
  nodes : t.nodesSeen = s.nodesSeen
  leaves : t.leavesSeen = s.leavesSeen

theorem Asks.refl (s : Builder) : Asks setup s s := ⟨.refl s, rfl, rfl⟩

theorem Asks.trans (s m t : Builder) (first : Asks setup s m) (second : Asks setup m t) : Asks setup s t :=
  ⟨.trans s m t first.toPays second.toPays, second.nodes.trans first.nodes, second.leaves.trans first.leaves⟩

theorem asks_bind {α β : Type} {p : Build α} {f : α → Build β} (first : Moves (Asks setup) p)
    (next : ∀ a, Moves (Asks setup) (f a)) : Moves (Asks setup) (p >>= f) := Moves.bind Asks.trans first next

theorem asks_lift {α : Type} (x : Except Failure α) : Moves (Asks setup) (lift x : Build α) := Moves.lift Asks.refl x

theorem asks_request {α : Type} (call : Call) (answer : ℕ → Except Failure α) : Moves (Asks setup) (request setup call answer) := by
  intro s
  by_cases spent : setup.maximum ≤ s.used
  · have left : after (request setup call answer) s = s := by
      simp [after, request, consume, bind, EStateM.bind, spent]
    rw [left]
    exact .refl s
  · have left : after (request setup call answer) s = { s with used := s.used + 1, calls := s.calls ++ [call] } := by
      simp only [after, request, consume, bind, EStateM.bind, spent, if_false]
      cases answer (s.used + 1) <;> rfl
    rw [left]
    refine ⟨⟨?_, Nat.le_succ _, ?_⟩, rfl, rfl⟩
    · simp only [List.length_append, List.length_singleton]
      omega
    · dsimp only
      omega

theorem asks_fields (slug : Text) (retries : ℕ) : Moves (Asks setup) (requestFields setup slug retries) := by
  induction retries with
  | zero => exact asks_request _ _
  | succ _ ih =>
    refine asks_bind (Moves.attempt (asks_request _ _)) fun answer => ?_
    cases answer with
    | ok data => exact Moves.pure Asks.refl data
    | error failure =>
      by_cases again : failure.retried = true
      · simpa only [again, if_true] using ih
      · simpa only [if_neg again] using Moves.throw Asks.refl failure

theorem asks_link (url token : Text) (maxValues : ℤ) (retries : ℕ) :
    Moves (Asks setup) (requestLink setup url token maxValues retries) := by
  induction retries with
  | zero => exact asks_bind (asks_request _ _) fun response => asks_lift _
  | succ _ ih =>
    refine asks_bind (asks_request _ _) fun response => ?_
    by_cases busy : response.statusCode = 429
    · simpa only [busy, if_true] using ih
    · simpa only [busy, if_false] using asks_lift _

theorem asks_fetch (url : Text) (maxValues : ℤ) : Moves (Asks setup) (fetchLinkValues setup url maxValues) := by
  refine asks_bind (asks_lift _) fun _ => asks_bind ?_ fun token => asks_link url token maxValues 5
  intro s
  exact asks_lift (setup.provider.getToken s.used) s

theorem asks_content (found : ℕ) (content : Json) : Moves (Asks setup) (contentValues setup found content) := by
  refine asks_bind (asks_lift _) fun pair => ?_
  by_cases linked : pair.1 = [] ∧ pair.2 ≠ []
  · simp only [linked, ne_eq, not_false_eq_true, and_self, if_true]
    exact asks_bind (Moves.get Asks.refl) fun builder => asks_fetch _ _
  · simp only [linked, if_false]
    exact Moves.pure Asks.refl pair.1

theorem asks_value (leaf : Text) (values : List Text) (value : Text) : Moves (Asks setup) (addValue setup leaf values value) := by
  intro s
  have left : after (addValue setup leaf values value) s = s := by
    unfold after addValue
    split <;> split_ifs at * <;> simp_all
  rw [left]
  exact .refl s

theorem asks_fold {α β : Type} {f : β → α → Build β} (step : ∀ b a, Moves (Asks setup) (f b a)) (b : β) (items : List α) :
    Moves (Asks setup) (items.foldlM f b) := Moves.foldlM Asks.refl Asks.trans step b items

theorem asks_partTypes (slug leaf : Text) : Moves (Asks setup) (leafPartTypes setup slug leaf) := by
  have content (values : List Text) (data : Json) : Moves (Asks setup) (addContent setup leaf values data) :=
    asks_bind (asks_content _ data) fun found => asks_fold (asks_value leaf) values found
  have field (values : List Text) (data : Json) : Moves (Asks setup) (addField setup leaf values data) :=
    asks_bind (asks_lift _) fun contents => asks_fold content values contents
  exact asks_bind (asks_fields slug 5) fun data => asks_bind (asks_lift _) fun fields => asks_fold field [] fields

theorem pays_bind {α β : Type} {p : Build α} {f : α → Build β} (first : Moves (Pays setup) p)
    (next : ∀ a, Moves (Pays setup) (f a)) : Moves (Pays setup) (p >>= f) := Moves.bind Pays.trans first next

theorem pays_lift {α : Type} (x : Except Failure α) : Moves (Pays setup) (lift x : Build α) := Moves.lift Pays.refl x

theorem pays_reserve (count depth : ℕ) : Moves (Pays setup) (reserveNodes setup count depth) := by
  intro s
  unfold after reserveNodes
  split
  all_goals
    rename_i h
    split_ifs at h
    all_goals cases h
    all_goals exact ⟨rfl, Nat.le_refl _, le_max_left _ _⟩

theorem pays_leaf : Moves (Pays setup) (countLeaf setup) := by
  intro s
  unfold after countLeaf
  split
  all_goals
    rename_i h
    simp only at h
    split_ifs at h
    all_goals cases h
    all_goals exact ⟨rfl, Nat.le_refl _, le_max_left _ _⟩

theorem pays_existing (nodes : List Json) (depth : ℕ) : Moves (Pays setup) (reserveExistingSubtree setup nodes depth) := by
  have each (pending : Json × ℕ) : Moves (Pays setup) (reserveExisting setup pending) :=
    pays_bind (pays_lift _) fun _ => pays_bind (pays_reserve _ _) fun _ => pays_bind (pays_lift _) fun _ => Moves.pure Pays.refl _
  intro s
  exact walk_moves Pays.refl Pays.trans each _ _ _ s

theorem pays_kept (slug : Text) (depth : ℕ) (failure : Failure) : Moves (Pays setup) (keepPrevious setup slug depth failure) :=
  pays_bind (pays_existing _ _) fun _ => pays_bind (Moves.modify fun _ => ⟨rfl, Nat.le_refl _, le_max_left _ _⟩)
    fun _ => Moves.pure Pays.refl _

theorem pays_readLeaf (depth : ℕ) (node : Json) : Moves (Pays setup) (readLeaf setup depth node) := by
  refine pays_bind (Moves.attempt ((asks_partTypes _ _).weaken fun _ _ asks => asks.toPays)) fun answer => ?_
  cases answer with
  | ok => exact pays_bind (pays_reserve _ _) fun _ => Moves.pure Pays.refl _
  | error failure =>
    cases failure with
    | limitExceeded => exact Moves.throw Pays.refl _
    | treeSync => exact pays_kept _ _ _
    | http => exact pays_kept _ _ _
    | request => exact pays_kept _ _ _
    | other => exact pays_kept _ _ _

theorem pays_leafChildren (depth : ℕ) (node : Json) : Moves (Pays setup) (leafChildren setup depth node) := by
  refine pays_bind pays_leaf fun _ => ?_
  by_cases bare : leafSlug setup node = []
  · simpa only [bare, if_true] using Moves.pure Pays.refl []
  · simpa only [bare, if_false] using pays_readLeaf depth node

theorem pays_node (room : ℕ) : ∀ (depth : ℕ) (node : Json), Moves (Pays setup) (buildNode setup room depth node) := by
  induction room with
  | zero => exact fun depth node => pays_bind (pays_reserve 1 depth) fun _ => Moves.throw Pays.refl _
  | succ _ ih =>
    intro depth node
    refine pays_bind (pays_reserve 1 depth) fun _ => pays_bind (pays_lift _) fun nodes => ?_
    by_cases leaf : nodes.isEmpty = true
    · simp only [leaf, if_true]
      exact pays_bind (pays_leafChildren depth node) fun _ => Moves.pure Pays.refl _
    · simp only [leaf]
      exact pays_bind (Moves.mapM Pays.refl Pays.trans (ih (depth + 1)) nodes) fun _ => Moves.pure Pays.refl _

theorem pays_build : Moves (Pays setup) (buildAutoParts setup) :=
  pays_bind ((asks_request _ _).weaken fun _ _ asks => asks.toPays) fun _ => pays_bind (pays_lift _) fun nodes =>
    pays_bind (Moves.mapM Pays.refl Pays.trans (pays_node _ 1) nodes) fun _ => pays_bind (Moves.get Pays.refl) fun _ => Moves.pure Pays.refl _

/-! ## Part types -/

def PartTypes (leaf : Text) (values : List Text) : Prop := values.Nodup ∧ leaf ∉ values

theorem PartTypes.add {leaf value : Text} {values found : List Text} {s t : Builder} (sound : PartTypes leaf values)
    (h : addValue setup leaf values value s = .ok found t) : PartTypes leaf found := by
  unfold addValue at h
  by_cases known : value = leaf ∨ values.contains value = true
  · simp only [known, if_true, EStateM.Result.ok.injEq] at h
    exact h.1 ▸ sound
  · rw [if_neg known] at h
    split at h
    · cases h
    · simp only [EStateM.Result.ok.injEq] at h
      rw [not_or, List.contains_iff_mem] at known
      rw [← h.1]
      refine ⟨List.nodup_append.mpr ⟨sound.1, List.nodup_singleton value, ?_⟩, ?_⟩
      · rintro other mem _ here rfl
        exact known.2 (List.mem_singleton.mp here ▸ mem)
      · rw [List.mem_append, List.mem_singleton, not_or]
        exact ⟨sound.2, fun same => known.1 same.symm⟩

theorem partTypes_ok {slug leaf : Text} {values : List Text} {s t : Builder} (h : leafPartTypes setup slug leaf s = .ok values t) :
    PartTypes leaf values := by
  have content (found : List Text) (data : Json) (s : Builder) (more : List Text) (t : Builder) (sound : PartTypes leaf found)
      (h : addContent setup leaf found data s = .ok more t) : PartTypes leaf more := by
    obtain ⟨_, m, -, folded⟩ := Program.bind_ok.mp h
    exact foldlM_keeps (fun _ _ _ _ _ keeps added => keeps.add added) sound folded
  have field (found : List Text) (data : Json) (s : Builder) (more : List Text) (t : Builder) (sound : PartTypes leaf found)
      (h : addField setup leaf found data s = .ok more t) : PartTypes leaf more := by
    obtain ⟨_, m, -, folded⟩ := Program.bind_ok.mp h
    exact foldlM_keeps content sound folded
  obtain ⟨data, m, -, rest⟩ := Program.bind_ok.mp h
  obtain ⟨_, n, -, folded⟩ := Program.bind_ok.mp rest
  exact foldlM_keeps field ⟨List.nodup_nil, List.not_mem_nil⟩ folded

/-! ## Reservations -/

/-- The count went up by the nodes of stored trees that are within the limits. -/
structure Reserves (limits : Limits) (depth : ℕ) (nodes : List Json) (before behind : ℕ) : Prop where
  counted : ∀ parent, behind = before + (visitsAll parent depth nodes).length
  shallow : ∀ parent, ∀ visit ∈ visitsAll parent depth nodes, visit.depth ≤ limits.maxDepth
  stored : ∀ node ∈ nodes, Stored node
  fits : before ≤ limits.maxNodes → behind ≤ limits.maxNodes

theorem Reserves.nil {limits : Limits} {depth count : ℕ} : Reserves limits depth [] count count where
  counted _ := by rw [visitsAll, List.length_nil, Nat.add_zero]
  shallow _ visit mem := by simp [visitsAll] at mem
  stored node mem := by cases mem
  fits fitted := fitted

theorem Reserves.append {limits : Limits} {depth n m k : ℕ} {first second : List Json} (before : Reserves limits depth first n m)
    (behind : Reserves limits depth second m k) : Reserves limits depth (first ++ second) n k where
  counted parent := by
    rw [behind.counted parent, before.counted parent, visitsAll_append, List.length_append, Nat.add_assoc]
  shallow parent visit mem := by
    rw [visitsAll_append, List.mem_append] at mem
    exact mem.elim (before.shallow parent visit) (behind.shallow parent visit)
  stored node mem := (List.mem_append.mp mem).elim (before.stored node) (behind.stored node)
  fits fitted := behind.fits (before.fits fitted)

theorem Reserves.node {limits : Limits} {depth n m : ℕ} {node : Json} {kids : List Json} (object : node.isObject = true)
    (are : ChildrenAre node kids) (shallow : depth ≤ limits.maxDepth) (fits : n + 1 ≤ limits.maxNodes)
    (below : Reserves limits (depth + 1) kids (n + 1) m) : Reserves limits depth [node] n m where
  counted parent := by
    rw [visitsAll, visitsNode_of_children object are, visitsAll, List.append_nil, List.length_cons,
      below.counted (parent ++ [pathName node])]
    omega
  shallow parent visit mem := by
    rw [visitsAll, visitsNode_of_children object are, visitsAll, List.append_nil, List.mem_cons] at mem
    rcases mem with rfl | deeper
    · exact shallow
    · exact below.shallow _ visit deeper
  stored other mem := List.mem_singleton.mp mem ▸ .node object are below.stored
  fits _ := below.fits fits

theorem reserveNodes_ok {count depth : ℕ} {s t : Builder} (h : reserveNodes setup count depth s = .ok () t) :
    (count ≠ 0 → depth ≤ setup.limits.maxDepth) ∧ s.nodesSeen + count ≤ setup.limits.maxNodes ∧
      t = { s with nodesSeen := s.nodesSeen + count } := by
  unfold reserveNodes at h
  split_ifs at h with deep full
  cases h
  rw [not_and, Nat.not_lt] at deep
  exact ⟨deep, Nat.le_of_not_lt full, rfl⟩

theorem reserveExisting_ok {pending : Json × ℕ} {below : List (Json × ℕ)} {s t : Builder}
    (h : reserveExisting setup pending s = .ok below t) :
    pending.1.isObject = true ∧ pending.2 ≤ setup.limits.maxDepth ∧ s.nodesSeen + 1 ≤ setup.limits.maxNodes ∧
      (∃ kids, ChildrenAre pending.1 kids ∧ below = kids.map fun kid => (kid, pending.2 + 1)) ∧
      t = { s with nodesSeen := s.nodesSeen + 1 } := by
  obtain ⟨_, m, checked, rest⟩ := Program.bind_ok.mp h
  obtain ⟨object, rfl⟩ := lift_ok.mp checked
  obtain ⟨_, n, reserved, more⟩ := Program.bind_ok.mp rest
  obtain ⟨shallow, fits, rfl⟩ := reserveNodes_ok reserved
  obtain ⟨kids, u, found, last⟩ := Program.bind_ok.mp more
  obtain ⟨are, rfl⟩ := lift_ok.mp found
  obtain ⟨rfl, rfl⟩ := Program.pure_ok.mp last
  exact ⟨by simpa using raiseIf_ok.mp object, shallow (by decide), fits, ⟨kids, storedChildren_ok.mp are, rfl⟩, rfl⟩

theorem reserves_of_traverses {pendings : List (Json × ℕ)} {s t : Builder}
    (h : Traverses (reserveExisting setup) s pendings t) {nodes : List Json} {depth : ℕ}
    (are : pendings = nodes.map fun node => (node, depth)) :
    Reserves setup.limits depth nodes s.nodesSeen t.nodesSeen ∧ t.leavesSeen = s.leavesSeen := by
  induction h generalizing nodes depth with
  | nil =>
    obtain rfl := List.map_eq_nil_iff.mp are.symm
    exact ⟨.nil, rfl⟩
  | cons visited _ _ ihInside ihOutside =>
    obtain ⟨node, _, rfl, rfl, rfl⟩ := List.map_eq_cons_iff.mp are.symm
    obtain ⟨object, shallow, fits, ⟨_, children, rfl⟩, rfl⟩ := reserveExisting_ok visited
    obtain ⟨below, inner⟩ := ihInside rfl
    obtain ⟨others, outer⟩ := ihOutside rfl
    exact ⟨(Reserves.node object children shallow fits below).append others, outer.trans inner⟩

theorem reserveExistingSubtree_ok {nodes : List Json} {depth : ℕ} {s t : Builder}
    (h : reserveExistingSubtree setup nodes depth s = .ok () t) :
    Reserves setup.limits depth nodes s.nodesSeen t.nodesSeen ∧ t.leavesSeen = s.leavesSeen :=
  reserves_of_traverses (traverses_of_walk h) rfl

/-! ## Nodes -/

theorem treeNode_children (node : Json) (below : List Json) : ChildrenAre (treeNode node below) below := .inr rfl

theorem partType_children (value : Text) : ChildrenAre (partType value) [] := .inr rfl

theorem partType_name (value : Text) : pathName (partType value) = value := rfl

theorem reserves_partTypes {limits : Limits} {depth : ℕ} {values : List Text} {n : ℕ}
    (shallow : values.length ≠ 0 → depth ≤ limits.maxDepth) (fits : n + values.length ≤ limits.maxNodes) :
    Reserves limits depth (values.map partType) n (n + values.length) := by
  induction values generalizing n with
  | nil => exact .nil
  | cons value _ ih =>
    rw [List.length_cons] at shallow fits ⊢
    have first : Reserves limits depth [partType value] n (n + 1) :=
      .node rfl (partType_children value) (shallow (Nat.succ_ne_zero _)) (by omega) .nil
    have others := ih (n := n + 1) (fun _ => shallow (Nat.succ_ne_zero _)) (by omega)
    rw [Nat.add_right_comm, Nat.add_assoc] at others
    exact first.append others

/-- A leaf of the provider with the children that its node has in the tree. -/
structure Leaf where
  node : Json
  kept : List Json

/-- Where the children of a leaf come from: there are none, its part types, or the stored branch. -/
def Leaf.Answered (setup : Setup) (leaf : Leaf) : Prop :=
  (leafSlug setup leaf.node = [] ∧ leaf.kept = []) ∨
    (∃ values, PartTypes (leafName setup leaf.node) values ∧ leaf.kept = values.map partType) ∨
    leaf.kept = setup.previous (leafSlug setup leaf.node)

/-- A forest of the provider and the tree that is built from it, with its leaves. -/
inductive Mirrors (setup : Setup) : List Json → List Json → List Leaf → Prop
  | nil : Mirrors setup [] [] []
  | branch {node : Json} {nodes built rest others : List Json} {inner outer : List Leaf} (are : children node = .ok nodes)
      (some_given : nodes ≠ []) (below : Mirrors setup nodes built inner) (behind : Mirrors setup rest others outer) :
      Mirrors setup (node :: rest) (treeNode node built :: others) (inner ++ outer)
  | leaf {leaf : Leaf} {rest others : List Json} {outer : List Leaf} (are : children leaf.node = .ok [])
      (answered : leaf.Answered setup) (behind : Mirrors setup rest others outer) :
      Mirrors setup (leaf.node :: rest) (treeNode leaf.node leaf.kept :: others) (leaf :: outer)

theorem Mirrors.append {nodes built rest others : List Json} {inner outer : List Leaf} (first : Mirrors setup nodes built inner)
    (second : Mirrors setup rest others outer) : Mirrors setup (nodes ++ rest) (built ++ others) (inner ++ outer) := by
  induction first with
  | nil => exact second
  | branch are given below _ _ ih =>
    rw [List.append_assoc]
    exact .branch are given below ih
  | leaf are answered _ ih => exact .leaf are answered ih

structure Builds (setup : Setup) (depth : ℕ) (nodes forest : List Json) (leaves : List Leaf) (s t : Builder) : Prop where
  mirrors : Mirrors setup nodes forest leaves
  reserves : Reserves setup.limits depth forest s.nodesSeen t.nodesSeen
  counted : t.leavesSeen = s.leavesSeen + leaves.length
  fits : s.leavesSeen ≤ setup.limits.maxLeaves → t.leavesSeen ≤ setup.limits.maxLeaves

theorem Builds.append {depth : ℕ} {nodes rest built others : List Json} {inner outer : List Leaf} {s m t : Builder}
    (first : Builds setup depth nodes built inner s m) (second : Builds setup depth rest others outer m t) :
    Builds setup depth (nodes ++ rest) (built ++ others) (inner ++ outer) s t where
  mirrors := first.mirrors.append second.mirrors
  reserves := first.reserves.append second.reserves
  counted := by rw [second.counted, first.counted, List.length_append, Nat.add_assoc]
  fits fitted := second.fits (first.fits fitted)

theorem builds_of_threads {depth : ℕ} {build : Json → Build Json}
    (each : ∀ node s result t, build node s = .ok result t → ∃ leaves, Builds setup depth [node] [result] leaves s t)
    {nodes forest : List Json} {s t : Builder} (h : Threads (fun s node result t => build node s = .ok result t) s nodes forest t) :
    ∃ leaves, Builds setup depth nodes forest leaves s t := by
  induction h with
  | nil => exact ⟨[], .nil, .nil, rfl, id⟩
  | cons first _ ih =>
    obtain ⟨inner, built⟩ := each _ _ _ _ first
    obtain ⟨outer, others⟩ := ih
    exact ⟨inner ++ outer, built.append others⟩

theorem countLeaf_ok {s t : Builder} (h : countLeaf setup s = .ok () t) :
    t = { s with leavesSeen := s.leavesSeen + 1 } ∧ t.leavesSeen ≤ setup.limits.maxLeaves := by
  unfold countLeaf at h
  simp only at h
  split_ifs at h with full
  cases h
  exact ⟨rfl, Nat.le_of_not_lt full⟩

theorem readLeaf_ok {depth : ℕ} {node : Json} {kept : List Json} {s t : Builder} (h : readLeaf setup depth node s = .ok kept t) :
    Leaf.Answered setup ⟨node, kept⟩ ∧ Reserves setup.limits (depth + 1) kept s.nodesSeen t.nodesSeen ∧ t.leavesSeen = s.leavesSeen := by
  obtain ⟨answer, m, asked, rest⟩ := Program.bind_ok.mp h
  cases answer with
  | ok values =>
    have read := attempt_ok.mp asked
    have asks := (asks_partTypes _ _).ok read
    obtain ⟨_, n, reserved, last⟩ := Program.bind_ok.mp rest
    obtain ⟨shallow, fits, rfl⟩ := reserveNodes_ok reserved
    obtain ⟨rfl, rfl⟩ := Program.pure_ok.mp last
    exact ⟨.inr (.inl ⟨values, partTypes_ok read, rfl⟩), asks.nodes ▸ reserves_partTypes shallow fits, asks.leaves⟩
  | error failure =>
    have asks := (asks_partTypes _ _).error (attempt_error.mp asked)
    have kept_back : keepPrevious setup (leafSlug setup node) depth failure m = .ok kept t := by
      cases failure with
      | limitExceeded => exact absurd rest (by simp [throw_ok])
      | treeSync => exact rest
      | http => exact rest
      | request => exact rest
      | other => exact rest
    obtain ⟨_, n, reserved, more⟩ := Program.bind_ok.mp kept_back
    obtain ⟨below, same⟩ := reserveExistingSubtree_ok reserved
    obtain ⟨_, u, warned, last⟩ := Program.bind_ok.mp more
    cases warned
    obtain ⟨rfl, rfl⟩ := Program.pure_ok.mp last
    exact ⟨.inr (.inr rfl), asks.nodes ▸ below, same.trans asks.leaves⟩

theorem leafChildren_ok {depth : ℕ} {node : Json} {kept : List Json} {s t : Builder}
    (h : leafChildren setup depth node s = .ok kept t) :
    Leaf.Answered setup ⟨node, kept⟩ ∧ Reserves setup.limits (depth + 1) kept s.nodesSeen t.nodesSeen ∧
      t.leavesSeen = s.leavesSeen + 1 ∧ t.leavesSeen ≤ setup.limits.maxLeaves := by
  obtain ⟨_, m, counted, rest⟩ := Program.bind_ok.mp h
  obtain ⟨rfl, fits⟩ := countLeaf_ok counted
  by_cases bare : leafSlug setup node = []
  · rw [if_pos bare] at rest
    obtain ⟨rfl, rfl⟩ := Program.pure_ok.mp rest
    exact ⟨.inl ⟨bare, rfl⟩, .nil, rfl, fits⟩
  · rw [if_neg bare] at rest
    obtain ⟨answered, below, same⟩ := readLeaf_ok rest
    exact ⟨answered, below, same, same ▸ fits⟩

theorem buildNode_ok (room : ℕ) : ∀ {depth : ℕ} {node result : Json} {s t : Builder},
    buildNode setup room depth node s = .ok result t → ∃ leaves, Builds setup depth [node] [result] leaves s t := by
  induction room with
  | zero =>
    intro depth node result s t h
    obtain ⟨_, m, -, stuck⟩ := Program.bind_ok.mp h
    exact absurd stuck (by simp [throw_ok])
  | succ _ ih =>
    intro depth node result s t h
    obtain ⟨_, m, reserved, rest⟩ := Program.bind_ok.mp h
    obtain ⟨shallow, fits, rfl⟩ := reserveNodes_ok reserved
    obtain ⟨nodes, n, found, more⟩ := Program.bind_ok.mp rest
    obtain ⟨are, rfl⟩ := lift_ok.mp found
    by_cases leaf : nodes.isEmpty = true
    · obtain rfl := List.isEmpty_iff.mp leaf
      obtain ⟨kept, u, below, last⟩ := Program.bind_ok.mp more
      obtain ⟨rfl, rfl⟩ := Program.pure_ok.mp last
      obtain ⟨answered, reserves, counted, within⟩ := leafChildren_ok below
      exact ⟨[⟨node, kept⟩], .leaf are answered .nil,
        .node rfl (treeNode_children node kept) (shallow (by decide)) fits reserves, counted, fun _ => within⟩
    · rw [if_neg leaf] at more
      obtain ⟨built, u, below, last⟩ := Program.bind_ok.mp more
      obtain ⟨rfl, rfl⟩ := Program.pure_ok.mp last
      obtain ⟨leaves, builds⟩ := builds_of_threads (fun _ _ _ _ => ih) (threads_of_mapM below)
      refine ⟨leaves, ?_, .node rfl (treeNode_children node built) (shallow (by decide)) fits builds.reserves, builds.counted, builds.fits⟩
      have some_given : nodes ≠ [] := fun none_given => leaf (none_given ▸ rfl)
      simpa using Mirrors.branch are some_given builds.mirrors .nil

/-! ## Builds -/

theorem newBuilder_ok {shown : Json → Text} {settings : Settings} {provider : Provider} {previousTree : Json} {budget : CallBudget}
    {builder : Builder} (made : newBuilder shown settings provider previousTree budget = .ok (setup, builder)) :
    setup.provider = provider ∧ setup.limits = settings.limits ∧ setup.maximum = budget.maximum ∧ setup.shown = shown ∧
      previousChildrenBySlug shown settings.limits previousTree = .ok setup.previousChildren ∧
      builder = { used := budget.used, calls := [], nodesSeen := 0, leavesSeen := 0, warnings := [] } := by
  obtain ⟨_, walked, last⟩ := Library.bind_ok.mp made
  obtain ⟨rfl, rfl⟩ := Prod.mk.inj (Library.pure_ok.mp last)
  exact ⟨rfl, rfl, rfl, rfl, walked, rfl⟩

theorem buildAutoParts_ok {builder built : Builder} {result : TreeBuildResult} (h : buildAutoParts setup builder = .ok result built) :
    ∃ rawTree nodes leaves, setup.provider.getCategoryTree (builder.used + 1) = .ok rawTree ∧ autoPartsNodes rawTree = .ok nodes ∧
      ∃ m, Asks setup builder m ∧ Builds setup 1 nodes result.tree leaves m built := by
  obtain ⟨rawTree, m, asked, rest⟩ := Program.bind_ok.mp h
  have asks := (asks_request _ _).ok asked
  obtain ⟨nodes, n, found, more⟩ := Program.bind_ok.mp rest
  obtain ⟨are, rfl⟩ := lift_ok.mp found
  obtain ⟨_, u, below, last⟩ := Program.bind_ok.mp more
  obtain ⟨leaves, builds⟩ := builds_of_threads (fun _ _ _ _ => buildNode_ok setup.limits.maxDepth) (threads_of_mapM below)
  obtain ⟨_, v, here, made⟩ := Program.bind_ok.mp last
  cases here
  obtain ⟨rfl, rfl⟩ := Program.pure_ok.mp made
  obtain ⟨_, w, paid, answered⟩ := Program.bind_ok.mp asked
  have used : w.used = builder.used + 1 := by
    unfold consume at paid
    split_ifs at paid
    cases paid
    rfl
  obtain ⟨given, -⟩ := lift_ok.mp answered
  exact ⟨rawTree, nodes, leaves, used ▸ given, are, m, asks, builds⟩

theorem Leaf.Answered.distinct {leaf : Leaf} {items : List Json} (answered : leaf.Answered setup)
    (branches : Holds (HasBranch setup.shown items) setup.previousChildren) :
    (leaf.kept.map pathName).Nodup ∨ HasBranch setup.shown items (leafSlug setup leaf.node) leaf.kept := by
  rcases answered with ⟨-, none_kept⟩ | ⟨_, sound, read⟩ | previous
  · exact .inl (none_kept ▸ List.nodup_nil)
  · left
    rw [read, List.map_map]
    exact sound.1.map fun a b same => by
      simpa only [Function.comp_apply, partType_name] using same
  · cases found : Dictionary.get (leafSlug setup leaf.node) setup.previousChildren with
    | none => exact .inl (by simp [previous, Setup.previous, found])
    | some kids => exact .inr (by simpa [previous, Setup.previous, found] using branches _ kids found)

theorem Mirrors.answered {nodes forest : List Json} {leaves : List Leaf} (mirrors : Mirrors setup nodes forest leaves) :
    ∀ leaf ∈ leaves, leaf.Answered setup := by
  induction mirrors with
  | nil => exact fun leaf mem => by cases mem
  | branch _ _ _ _ ihBelow ihBehind =>
    exact fun leaf mem => (List.mem_append.mp mem).elim (ihBelow leaf) (ihBehind leaf)
  | leaf _ answered _ ih =>
    intro other mem
    rcases List.mem_cons.mp mem with rfl | later
    · exact answered
    · exact ih other later

section Runs

def twoLeaves : Provider where
  getCategoryTree _ := .ok (.list [.object [(nameKey, .text "Транспорт".toList), (nestedKey, .list [
    .object [(nameKey, .text "Запчасти и аксессуары".toList), (nestedKey, .list [
      .object [(nameKey, .text "Двигатель".toList), (slugKey, .text "engine".toList)],
      .object [(nameKey, .text "Кузов".toList), (slugKey, .text "body".toList)]])]])]])
  getNodeFields _ slug :=
    if slug = "engine".toList then .ok (.object [(fieldsKey, .list [.object [(tagKey, .text partTypeSuffix),
      (contentKey, .list [.object [(valuesKey, .list [.object [(valueKey, .text "Поршни".toList)]])]])]])])
    else .error (.http (some 500) "500 Server Error")
  getToken _ := .ok []
  requestValues _ _ _ := .error (.treeSync "Avito вернул некорректную ссылку значений.")

def storedTwice : Json := .list [.object [(nameKey, .text "Кузов".toList), (slugKey, .text "body".toList),
  (childrenKey, .list [partType "Двери".toList, partType "Двери".toList])]]

def twoLeavesSetup : Setup where
  provider := twoLeaves
  limits := Settings.limits {}
  maximum := 3000
  previousChildren := [("body".toList, [partType "Двери".toList, partType "Двери".toList])]
  shown _ := []

def freshBuilder : Builder where
  used := 0
  calls := []
  nodesSeen := 0
  leavesSeen := 0
  warnings := []

theorem twoLeaves_setup : newBuilder (fun _ => []) {} twoLeaves storedTwice (Settings.callBudget {}) = .ok (twoLeavesSetup, freshBuilder) := by
  with_unfolding_all rfl

/-- The names of the children of each node, and whether every node has a name that the walk accepts. -/
def partNames : EStateM.Result Failure Builder TreeBuildResult → Option (List (List Text) × Bool)
  | .ok result _ => some (result.tree.map fun node => (keptChildren node).map pathName,
      (documentOrder result.tree).all fun visit => decide ((nodeName visit.node).toOption = some (pathName visit.node)))
  | .error _ _ => none

theorem partNames_some {outcome : EStateM.Result Failure Builder TreeBuildResult} {names : List (List Text)}
    (is : partNames outcome = some (names, true)) : ∃ result built, outcome = .ok result built ∧
      (result.tree.map fun node => (keptChildren node).map pathName) = names ∧ ∀ visit ∈ documentOrder result.tree, HasName visit.node := by
  cases outcome with
  | error => cases is
  | ok result builder =>
    obtain ⟨rfl, named⟩ := Prod.mk.inj (Option.some.inj is)
    exact ⟨result, builder, rfl, rfl, fun visit mem => ok_of_toOption (of_decide_eq_true (List.all_eq_true.mp named visit mem))⟩

theorem twoLeaves_names : partNames (buildAutoParts twoLeavesSetup freshBuilder) =
    some ([["Поршни".toList], ["Двери".toList, "Двери".toList]], true) := by
  decide +kernel

end Runs

end MapBackend.Marketplaces.AvitoTree
