import MapBackend.Marketplaces.AvitoLoadedRelations

/-!
The build context answers for a listing as the plain resolvers do, whatever the ORM has loaded before.
-/

namespace MapBackend.Marketplaces.Avito
open MapBackend.Core MapBackend.Core.Url MapBackend.Library

variable {db : NamedDatabase}

/-! ## Objects -/

namespace CategoryObject

def nodes : CategoryObject → List CategoryObject
  | .bare row => [.bare row]
  | .root row => [.root row]
  | .under row parent => .under row parent :: parent.nodes

theorem self_mem (object : CategoryObject) : object ∈ object.nodes := by
  cases object <;> exact List.mem_cons_self

theorem nodes_trans {first second third : CategoryObject} (inner : first ∈ second.nodes) (outer : second ∈ third.nodes) :
    first ∈ third.nodes := by
  induction third with
  | bare => exact List.mem_singleton.mp outer ▸ inner
  | root => exact List.mem_singleton.mp outer ▸ inner
  | under _ _ ih =>
    rcases List.mem_cons.mp outer with rfl | above
    · exact inner
    · exact List.mem_cons_of_mem _ (ih above)

theorem Shows.row {db : FeedDatabase} {object : CategoryObject} (shows : object.Shows db) :
    db.category object.row.id = some object.row := by
  cases object with
  | bare => exact shows
  | root => exact shows.1
  | under => exact shows.1

theorem Shows.node {db : FeedDatabase} {object node : CategoryObject} (shows : object.Shows db) (mem : node ∈ object.nodes) :
    node.Shows db := by
  induction object with
  | bare => exact List.mem_singleton.mp mem ▸ shows
  | root => exact List.mem_singleton.mp mem ▸ shows
  | under _ _ ih =>
    rcases List.mem_cons.mp mem with rfl | above
    · exact shows
    · exact ih shows.2.2 above

end CategoryObject

def rowsOf (categories : Dict ℕ CategoryObject) : Dict ℕ CatalogCategory := fun id => (categories id).map CategoryObject.row

def Chained (categories : Dict ℕ CategoryObject) (object : CategoryObject) : Prop :=
  ∀ node ∈ object.nodes, (categories node.row.id).isSome

/-- What a registration does: it keeps the entries, adds nodes of the object, and names the parent that is missing. -/
structure Registers (categories later : Dict ℕ CategoryObject) (object : CategoryObject) (missing : Option ℕ) : Prop where
  kept : ∀ id, (categories id).isSome → later id = categories id
  made : ∀ id entry, later id = some entry → categories id = some entry ∨ (entry ∈ object.nodes ∧ entry.row.id = id)
  chained : Chained later object
  settled : ∀ db : FeedDatabase, object.Shows db → ∀ node ∈ object.nodes, ∀ parent ∈ node.row.parent,
    (later parent).isSome ∨ missing = some parent

variable {categories : Dict ℕ CategoryObject}

theorem setdefault_kept {id other : ℕ} {object : CategoryObject}
    (there : (categories other).isSome) : categories.setdefault id object other = categories other := by
  obtain ⟨_, _⟩ := Option.isSome_iff_exists.mp there
  unfold Dict.setdefault
  split
  next => rfl
  next absent =>
    refine Dict.set_other categories object fun same => ?_
    rw [same] at there
    exact absent there

theorem registers (categories : Dict ℕ CategoryObject) (object : CategoryObject) :
    Registers categories (registerCategory categories object).1 object (registerCategory categories object).2 := by
  induction object generalizing categories with
  | bare row =>
    have own : (categories.setdefault row.id (.bare row) row.id).isSome := Dict.isSome_setdefault _ _ (.inl rfl)
    refine ⟨fun id there => setdefault_kept there, fun id entry found => ?_, ?_, ?_⟩
    · rcases Dict.of_setdefault found with ⟨rfl, rfl⟩ | before
      · exact .inr ⟨CategoryObject.self_mem _, rfl⟩
      · exact .inl before
    · intro node mem
      rw [List.mem_singleton.mp mem]
      exact own
    · intro db _ node mem parent points
      rw [List.mem_singleton.mp mem] at points
      by_cases there : (categories.setdefault row.id (.bare row) parent).isSome
      · exact .inl there
      · refine .inr ?_
        rw [registerCategory, Option.filter_eq_some_iff]
        exact ⟨points, by simpa using there⟩
  | root =>
    refine ⟨fun id there => setdefault_kept there, fun id entry found => ?_, ?_, ?_⟩
    · rcases Dict.of_setdefault found with ⟨rfl, rfl⟩ | before
      · exact .inr ⟨CategoryObject.self_mem _, rfl⟩
      · exact .inl before
    · intro node mem
      rw [List.mem_singleton.mp mem]
      exact Dict.isSome_setdefault _ _ (.inl rfl)
    · intro db shows node mem parent points
      rw [List.mem_singleton.mp mem] at points
      exact absurd (shows.2.symm.trans points) (by simp)
  | under row parent ih =>
    have inner := ih (categories.setdefault row.id (.under row parent))
    rw [registerCategory]
    refine ⟨fun id there => ?_, fun id entry found => ?_, fun node mem => ?_, fun db shows node mem above points => ?_⟩
    · have first : (categories.setdefault row.id (.under row parent) id).isSome := by
        rw [setdefault_kept there]
        exact there
      rw [inner.kept id first, setdefault_kept there]
    · rcases inner.made id entry found with before | ⟨mem, same⟩
      · rcases Dict.of_setdefault before with ⟨rfl, rfl⟩ | older
        · exact .inr ⟨CategoryObject.self_mem _, rfl⟩
        · exact .inl older
      · exact .inr ⟨List.mem_cons_of_mem _ mem, same⟩
    · rcases List.mem_cons.mp mem with rfl | above
      · have first : (categories.setdefault row.id (.under row parent) row.id).isSome := Dict.isSome_setdefault _ _ (.inl rfl)
        have same := inner.kept row.id first
        rw [← same] at first
        exact first
      · exact inner.chained node above
    · rcases List.mem_cons.mp mem with rfl | upper
      · obtain ⟨-, up, -⟩ := shows
        have same : parent.row.id = above := Option.some.inj (up.symm.trans points)
        exact .inl (same ▸ inner.chained parent parent.self_mem)
      · exact inner.settled db shows.2.2 node upper above points

theorem registerCategory_chained {object : CategoryObject}
    (chained : Chained categories object) : (registerCategory categories object).1 = categories := by
  induction object with
  | bare => exact if_pos (chained _ (CategoryObject.self_mem _))
  | root => exact if_pos (chained _ (CategoryObject.self_mem _))
  | under row parent ih =>
    have same : categories.setdefault row.id (.under row parent) = categories := if_pos (chained _ (CategoryObject.self_mem _))
    rw [registerCategory, same]
    exact ih fun node mem => chained node (List.mem_cons_of_mem _ mem)

/-! ## Specs -/

section Resolve

variable {S : Type} {parentOf : S → CategoryObject → S × Option CategoryObject} {s : S} {good : CategoryObject → Prop}

/-- A reader that finds the parents of good objects as the database does, without a change of its state. -/
def Reads (db : FeedDatabase) (parentOf : S → CategoryObject → S × Option CategoryObject) (s : S) (good : CategoryObject → Prop) : Prop :=
  ∀ object, good object → (parentOf s object).1 = s ∧
    (parentOf s object).2.map CategoryObject.row = db.parentOf object.row ∧ ∀ parent ∈ (parentOf s object).2, good parent

variable {object : CategoryObject} {db : FeedDatabase}

theorem Reads.walkUp (reads : Reads db parentOf s good) (leafOf : CatalogCategory → Option Leaf) (holds : good object) (steps : ℕ) :
    walkUp parentOf leafOf steps s (some object) = (s, (ancestry db.parentOf steps object.row).findSome? leafOf) := by
  induction steps generalizing object with
  | zero => rfl
  | succ steps ih =>
    obtain ⟨same, above, goods⟩ := reads object holds
    rw [Avito.walkUp, ancestry, List.findSome?_cons]
    cases own : leafOf object.row with
    | some => rfl
    | none =>
      dsimp only
      rw [same, ← above]
      cases found : (parentOf s object).2 with
      | none => cases steps <;> rfl
      | some parent => exact ih (goods parent found)

theorem Reads.resolve (reads : Reads db parentOf s good) (taxonomy : Taxonomy) (steps : ℕ) (holds : good object) :
    resolveObjectSpec parentOf taxonomy steps s object = (s, resolveAvitoSpec taxonomy steps object.row db.parentOf) := by
  obtain ⟨same, above, -⟩ := reads object holds
  unfold resolveObjectSpec resolveAvitoSpec
  simp only [same, above]
  cases taxonomy.avitoSpecFor object.row.name (column (db.parentOf object.row) CatalogCategory.name) with
  | some => rfl
  | none =>
    simp only [reads.walkUp _ holds]
    cases (ancestry db.parentOf steps object.row).findSome? fun row => taxonomy.leafSpecBySlug row.externalId with
    | some => rfl
    | none => rfl

theorem Reads.ancestors (reads : Reads db parentOf s good) (holds : good object)
    (steps : ℕ) : ancestorsUp parentOf steps s (some object) = (s, ancestry db.parentOf steps object.row) := by
  induction steps generalizing object with
  | zero => rfl
  | succ steps ih =>
    obtain ⟨same, above, goods⟩ := reads object holds
    rw [ancestorsUp, ancestry]
    dsimp only
    rw [same, ← above]
    cases found : (parentOf s object).2 with
    | none => cases steps <;> rfl
    | some parent =>
      rw [ih (goods parent found)]
      rfl

end Resolve

theorem plain_reads : Reads db.toFeedDatabase (fun _ node => ((), LoadedListing.parentObject db.toFeedDatabase node)) ()
    fun object => object.Shows db.toFeedDatabase := by
  intro object shows
  refine ⟨rfl, ?_⟩
  cases object with
  | bare row =>
    refine ⟨?_, fun parent mem => ?_⟩
    · change ((db.parentOf row).map .bare).map CategoryObject.row = db.parentOf row
      rw [Option.map_map]
      exact congrFun Option.map_id _
    · obtain ⟨above, found, rfl⟩ := Option.map_eq_some_iff.mp mem
      obtain ⟨id, -, row⟩ := Option.bind_eq_some_iff.mp found
      obtain ⟨-, key⟩ := Dict.key_of_find row
      have own : db.category above.id = some above := by
        rw [show above.id = id from key]
        exact row
      exact own
  | root =>
    refine ⟨?_, fun parent mem => absurd mem (Option.not_mem_none parent)⟩
    rw [FeedDatabase.parentOf, CategoryObject.row, shows.2]
    rfl
  | under =>
    obtain ⟨-, up, above⟩ := shows
    refine ⟨?_, fun other mem => ?_⟩
    · rw [FeedDatabase.parentOf, CategoryObject.row, up]
      exact above.row.symm
    · exact Option.some.inj mem ▸ above

/-- The objects in a cache show rows under their keys, their loaded ancestors are cached, and so are the parents that the
database has. -/
structure Closed (db : FeedDatabase) (wanted : List ℕ) (categories : Dict ℕ CategoryObject) : Prop where
  shown : ∀ id object, categories id = some object → object.Shows db ∧ object.row.id = id
  nested : ∀ id object, categories id = some object → Chained categories object
  settled : ∀ id object, categories id = some object → ∀ parent ∈ object.row.parent,
    (categories parent).isSome ∨ parent ∈ wanted ∨ db.category parent = none

structure Cached (db : FeedDatabase) (categories : Dict ℕ CategoryObject) (object : CategoryObject) : Prop where
  shows : object.Shows db
  chained : Chained categories object

theorem Closed.agrees {wanted : List ℕ} (closed : Closed db.toFeedDatabase wanted categories) :
    Dict.Agrees (rowsOf categories) db.category := by
  intro id row found
  obtain ⟨object, entry, rfl⟩ := Option.map_eq_some_iff.mp found
  obtain ⟨shows, key⟩ := closed.shown id object entry
  exact key ▸ shows.row

theorem Closed.reads (closed : Closed db.toFeedDatabase [] categories) :
    Reads db.toFeedDatabase LoadedContext.parentOf categories (Cached db.toFeedDatabase categories) := by
  intro object cached
  cases object with
  | bare row =>
    obtain ⟨entry, found⟩ := Option.isSome_iff_exists.mp (cached.chained _ (CategoryObject.self_mem _))
    obtain ⟨shows, key⟩ := closed.shown _ entry found
    have same : entry.row = row := Option.some.inj (shows.row.symm.trans (key ▸ cached.shows))
    refine ⟨rfl, ?_, fun parent mem => ?_⟩
    · simp only [LoadedContext.parentOf, FeedDatabase.parentOf, CategoryObject.row]
      cases points : row.parent with
      | none => rfl
      | some parent =>
        refine closed.agrees.eq ((closed.settled _ entry found parent (same ▸ points)).imp ?_ ?_)
        · exact fun there => by rwa [rowsOf, Option.isSome_map]
        · exact fun rest => rest.resolve_left List.not_mem_nil
    · obtain ⟨id, -, above⟩ := Option.bind_eq_some_iff.mp mem
      exact ⟨(closed.shown id parent above).1, closed.nested id parent above⟩
  | root =>
    refine ⟨rfl, ?_, fun parent mem => absurd mem (Option.not_mem_none parent)⟩
    rw [FeedDatabase.parentOf, CategoryObject.row, cached.shows.2]
    rfl
  | under _ parent =>
    have above : Chained categories parent := fun node mem => cached.chained node (List.mem_cons_of_mem _ mem)
    refine ⟨registerCategory_chained above, ?_, fun other mem => ?_⟩
    · rw [FeedDatabase.parentOf, CategoryObject.row, cached.shows.2.1]
      exact cached.shows.2.2.row.symm
    · exact Option.some.inj mem ▸ ⟨cached.shows.2.2, above⟩

/-! ## Loading categories -/

structure Asked (state : Dict ℕ CategoryObject × List ℕ) (loaded : LoadedListing db) : Prop where
  missing : loaded.category = none → ∀ id ∈ loaded.listing.product.catalogCategory, (state.1 id).isSome ∨ id ∈ state.2
  present : ∀ object, loaded.category = some (some object) → Chained state.1 object

structure Grows (state later : Dict ℕ CategoryObject × List ℕ) : Prop where
  keys : ∀ id, (state.1 id).isSome → (later.1 id).isSome
  wanted : state.2 ⊆ later.2

theorem Asked.grow {state later : Dict ℕ CategoryObject × List ℕ} {loaded : LoadedListing db} (asked : Asked state loaded)
    (grows : Grows state later) : Asked later loaded where
  missing none id own := (asked.missing none id own).imp (grows.keys id) fun mem => grows.wanted mem
  present object is node mem := grows.keys _ (asked.present object is node mem)

theorem wantCategory_closed {state : Dict ℕ CategoryObject × List ℕ} (closed : Closed db.toFeedDatabase state.2 state.1)
    (loaded : LoadedListing db) :
    Closed db.toFeedDatabase (LoadedContext.wantCategory state loaded).2 (LoadedContext.wantCategory state loaded).1 ∧
      Grows state (LoadedContext.wantCategory state loaded) ∧ Asked (LoadedContext.wantCategory state loaded) loaded := by
  unfold LoadedContext.wantCategory
  cases is : loaded.category with
  | none =>
    refine ⟨?_, ⟨fun _ => id, List.subset_append_right _ _⟩, ?_, ?_⟩
    · refine { closed with settled := fun id object found parent points => ?_ }
      exact (closed.settled id object found parent points).imp_right (.imp_left fun mem => List.mem_append_right _ mem)
    · exact fun _ id own => .inr (List.mem_append_left _ (Option.mem_toList.mpr own))
    · exact fun object other => by simp [is] at other
  | some relation =>
    cases relation with
    | none =>
      refine ⟨closed, ⟨fun _ => id, List.Subset.refl _⟩, fun none => ?_, fun object other => ?_⟩
      · simp [is] at none
      · simp [is] at other
    | some object =>
      have done := registers state.1 object
      have shows : object.Shows db.toFeedDatabase := (loaded.categoryShown _ is).2 object rfl
      dsimp only
      refine ⟨⟨fun id entry found => ?_, fun id entry found node mem => ?_, fun id entry found parent points => ?_⟩,
        ⟨fun id there => ?_, List.subset_append_right _ _⟩, fun none => ?_, fun other same => ?_⟩
      · rcases done.made id entry found with before | ⟨mem, key⟩
        · exact closed.shown id entry before
        · exact ⟨shows.node mem, key⟩
      · rcases done.made id entry found with before | ⟨own, -⟩
        · have there := closed.nested id entry before node mem
          rw [done.kept _ there]
          exact there
        · exact done.chained node (CategoryObject.nodes_trans mem own)
      · rcases done.made id entry found with before | ⟨own, -⟩
        · rcases closed.settled id entry before parent points with there | rest
          · refine .inl ?_
            rw [done.kept _ there]
            exact there
          · exact .inr (rest.imp_left fun mem => List.mem_append_right _ mem)
        · refine (done.settled db.toFeedDatabase shows entry own parent points).imp_right fun missing => .inl ?_
          exact List.mem_append_left _ (Option.mem_toList.mpr missing)
      · rw [done.kept id there]
        exact there
      · simp [is] at none
      · obtain rfl : object = other := by simpa [is] using same
        exact done.chained

theorem wantCategories_closed (batch : List (LoadedListing db)) {state : Dict ℕ CategoryObject × List ℕ}
    (closed : Closed db.toFeedDatabase state.2 state.1) :
    Closed db.toFeedDatabase (batch.foldl LoadedContext.wantCategory state).2 (batch.foldl LoadedContext.wantCategory state).1 ∧
      Grows state (batch.foldl LoadedContext.wantCategory state) ∧
      ∀ loaded ∈ batch, Asked (batch.foldl LoadedContext.wantCategory state) loaded := by
  induction batch generalizing state with
  | nil => exact ⟨closed, ⟨fun _ => id, List.Subset.refl _⟩, fun _ mem => absurd mem List.not_mem_nil⟩
  | cons first _ ih =>
    obtain ⟨step, grows, asked⟩ := wantCategory_closed closed first
    obtain ⟨all, later, others⟩ := ih step
    refine ⟨all, ⟨fun id there => later.keys id (grows.keys id there), List.Subset.trans grows.wanted later.wanted⟩, fun loaded mem => ?_⟩
    rcases List.mem_cons.mp mem with rfl | mem
    · exact asked.grow later
    · exact others loaded mem

structure CategoryReady (categories : Dict ℕ CategoryObject) (loaded : LoadedListing db) : Prop where
  missing : loaded.category = none → ∀ id ∈ loaded.listing.product.catalogCategory, rowsOf categories id = db.category id
  present : ∀ object, loaded.category = some (some object) → Chained categories object

variable {context : LoadedContext}

theorem loadCategories_ready (batch : List (LoadedListing db)) (empty : context.categories = Dict.empty) :
    Closed db.toFeedDatabase [] (LoadedContext.loadCategories batch context).categories ∧
      ∀ loaded ∈ batch, CategoryReady (LoadedContext.loadCategories batch context).categories loaded := by
  have start : Closed db.toFeedDatabase [] context.categories := by
    rw [empty]
    exact ⟨fun _ _ found => (by cases found), fun _ _ found => (by cases found), fun _ _ found => (by cases found)⟩
  obtain ⟨closed, -, asked⟩ := @wantCategories_closed db batch (context.categories, []) start
  simp only [LoadedContext.loadCategories]
  generalize batch.foldl LoadedContext.wantCategory (context.categories, []) = state at *
  obtain ⟨categories, wanted⟩ := state
  dsimp only at *
  generalize asks : (wanted.filter fun id => (categories id).isNone) = pending
  have pends {id : ℕ} (settled : (categories id).isSome ∨ id ∈ wanted) : (rowsOf categories id).isSome ∨ id ∈ pending := by
    rw [rowsOf, Option.isSome_map]
    by_cases there : (categories id).isSome
    · exact .inl there
    · rw [← asks]
      exact .inr (List.mem_filter.mpr ⟨settled.resolve_left there, by simpa using there⟩)
  have closing : Dict.Closing CatalogCategory.id CatalogCategory.parent db.categories pending (rowsOf categories) := by
    refine ⟨closed.agrees, fun id row found parent points => ?_⟩
    obtain ⟨object, entry, rfl⟩ := Option.map_eq_some_iff.mp found
    rcases closed.settled id object entry parent points with there | mem | absent
    · exact (pends (.inl there)).imp_right .inl
    · exact (pends (.inr mem)).imp_right .inl
    · exact .inr (.inr absent)
  have fresh : ∀ id ∈ pending, rowsOf categories id = none := by
    intro id mem
    rw [← asks] at mem
    have absent := (List.mem_filter.mp mem).2
    rw [rowsOf, Option.map_eq_none_iff]
    simpa using absent
  have enough : Dict.missing CatalogCategory.id db.categories (rowsOf categories) < db.categories.length + 1 :=
    Nat.lt_succ_of_le (List.length_filter_le _ _)
  obtain ⟨closes, settles⟩ := Dict.load_closing db.categoryKeys closing fresh enough
  have rows : rowsOf (Dict.load (fun object => object.row.id) (fun object => object.row.parent) (db.categories.map .bare)
      (db.categories.length + 1) pending categories) = Dict.load CatalogCategory.id CatalogCategory.parent db.categories
        (db.categories.length + 1) pending (rowsOf categories) := by
    have loads := @Dict.load_map _ _ _ _ CatalogCategory.id CatalogCategory.parent CategoryObject.row (db.categories.map .bare)
      (db.categories.length + 1) pending categories
    rw [List.map_map] at loads
    have shown : db.categories.map (CategoryObject.row ∘ .bare) = db.categories := List.map_id _
    rw [shown] at loads
    exact loads
  rw [← rows] at closes settles
  generalize after : Dict.load (fun object : CategoryObject => object.row.id) (fun object => object.row.parent)
    (db.categories.map .bare) (db.categories.length + 1) pending categories = later at *
  have keeps {id : ℕ} (there : (categories id).isSome) : (later id).isSome := after ▸ Dict.isSome_load there
  have key {id : ℕ} {object : CategoryObject} (found : later id = some object) : object.row.id = id := by
    have row := closes.agrees id object.row (by rw [rowsOf, found]; rfl)
    exact (Dict.key_of_find row).2
  refine ⟨⟨fun id object found => ?_, fun id object found node mem => ?_, fun id object found parent points => ?_⟩, fun loaded mem => ?_⟩
  · refine ⟨?_, key found⟩
    rcases Dict.of_load (after ▸ found) with table | before
    · obtain ⟨row, row_mem, rfl⟩ := List.mem_map.mp table
      exact Dict.find_of_mem db.categoryKeys row_mem
    · exact (closed.shown id object before).1
  · rcases Dict.of_load (after ▸ found) with table | before
    · obtain ⟨row, -, rfl⟩ := List.mem_map.mp table
      rw [List.mem_singleton.mp mem, key found, found]
      rfl
    · exact keeps (closed.nested id object before node mem)
  · rcases closes.settled id object.row (by rw [rowsOf, found]; rfl) parent points with there | rest | absent
    · rw [rowsOf, Option.isSome_map] at there
      exact .inl there
    · exact .inr (.inl rest)
    · exact .inr (.inr absent)
  · refine ⟨fun none id own => ?_, fun object is node mem' => keeps ((asked loaded mem).present object is node mem')⟩
    have settled := settles id ((pends ((asked loaded mem).missing none id own)).imp_right .inl)
    exact closes.agrees.eq (settled.imp_right fun rest => rest.resolve_left List.not_mem_nil)

/-! ## Loading mappings -/

/-- The cached mappings are those of the database, all of them for a loaded tenant. -/
structure Mapped (db : FeedDatabase) (mappings : Dict (ℕ × Text) CategoryMapping) (tenants : List ℕ) : Prop where
  agrees : mappings.Agrees (Dict.find FeedBuildContext.mappingKey db.categoryMappings)
  loaded : ∀ tenant ∈ tenants, ∀ source, mappings (tenant, source) = db.mapping tenant source

theorem Mapped.fill {db : FeedDatabase} {mappings : Dict (ℕ × Text) CategoryMapping} {tenants later : List ℕ}
    (mapped : Mapped db mappings tenants) {rows : List CategoryMapping} (sub : rows ⊆ db.categoryMappings)
    (all : ∀ tenant ∈ later, tenant ∈ tenants ∨ ∀ row ∈ db.categoryMappings, row.tenant = tenant → row ∈ rows) :
    Mapped db (Dict.fill FeedBuildContext.mappingKey rows mappings) later := by
  have agrees := mapped.agrees.fill db.mappingKeys sub
  refine ⟨agrees, fun tenant mem source => agrees.eq ?_⟩
  rcases all tenant mem with before | now
  · cases known : mappings (tenant, source) with
    | some => exact .inl (Dict.isSome_fill (.inr (by rw [known]; rfl)))
    | none => exact .inr ((mapped.loaded tenant before source).symm.trans known)
  · cases found : Dict.find FeedBuildContext.mappingKey db.categoryMappings (tenant, source) with
    | none => exact .inr found
    | some row =>
      obtain ⟨there, same⟩ := Dict.key_of_find found
      exact .inl (Dict.isSome_fill (.inl ⟨row, now row there (congrArg Prod.fst same), same⟩))

theorem registerMappings_mapped (loaded : LoadedListing db)
    (mapped : Mapped db.toFeedDatabase context.categoryMappings context.mappingTenantsLoaded) :
    Mapped db.toFeedDatabase (context.registerMappings loaded).categoryMappings
      (context.registerMappings loaded).mappingTenantsLoaded := by
  unfold LoadedContext.registerMappings
  split
  · exact mapped
  · cases is : loaded.categoryMappings with
    | none => exact mapped
    | some rows =>
      have same := loaded.mappingsShown rows is
      refine mapped.fill (fun row mem => (List.mem_filter.mp (same.mem_iff.mp mem)).1) fun tenant mem => ?_
      rcases List.mem_cons.mp mem with rfl | before
      · refine .inr fun row there owner => same.mem_iff.mpr (List.mem_filter.mpr ⟨there, ?_⟩)
        simpa using owner
      · exact .inl before

theorem loadCategoryMappings_mapped (batch : List (LoadedListing db))
    (mapped : Mapped db.toFeedDatabase context.categoryMappings context.mappingTenantsLoaded) :
    Mapped db.toFeedDatabase (LoadedContext.loadCategoryMappings batch context).categoryMappings
        (LoadedContext.loadCategoryMappings batch context).mappingTenantsLoaded ∧
      ∀ loaded ∈ batch, loaded.listing.tenant ∈ (LoadedContext.loadCategoryMappings batch context).mappingTenantsLoaded := by
  have prefetched : Mapped db.toFeedDatabase (batch.foldl LoadedContext.registerMappings context).categoryMappings
      (batch.foldl LoadedContext.registerMappings context).mappingTenantsLoaded := by
    induction batch generalizing context with
    | nil => exact mapped
    | cons first _ ih => exact ih (registerMappings_mapped first mapped)
  simp only [LoadedContext.loadCategoryMappings]
  generalize batch.foldl LoadedContext.registerMappings context = middle at *
  refine ⟨prefetched.fill (List.filter_subset_self _) fun tenant mem => ?_, fun loaded mem => ?_⟩
  · refine (List.mem_append.mp mem).imp_right fun asked row there owner => List.mem_filter.mpr ⟨there, ?_⟩
    exact List.contains_iff_mem.mpr (owner ▸ asked)
  · by_cases known : loaded.listing.tenant ∈ middle.mappingTenantsLoaded
    · exact List.mem_append_left _ known
    · refine List.mem_append_right _ (List.mem_filter.mpr ⟨?_, by simpa using known⟩)
      exact List.mem_map_of_mem (f := fun loaded : LoadedListing db => loaded.listing.tenant) mem

theorem plain_category (loaded : LoadedListing db) :
    loaded.catalogCategory.map CategoryObject.row = db.categoryOf loaded.listing.product ∧
      ∀ object ∈ loaded.catalogCategory, object.Shows db.toFeedDatabase := by
  unfold LoadedListing.catalogCategory
  cases is : loaded.category with
  | some relation => exact loaded.categoryShown relation is
  | none =>
    rw [Option.getD_none, Option.map_map]
    refine ⟨congrFun Option.map_id _, fun object found => ?_⟩
    obtain ⟨row, own, rfl⟩ := Option.map_eq_some_iff.mp found
    obtain ⟨id, -, there⟩ := Option.bind_eq_some_iff.mp own
    obtain ⟨-, key⟩ := Dict.key_of_find there
    change db.category row.id = some row
    rw [show row.id = id from key]
    exact there

theorem plain_mapping (loaded : LoadedListing db) : loaded.getCategoryMapping = db.getCategoryMapping loaded.listing := by
  obtain ⟨category, -⟩ := plain_category loaded
  unfold LoadedListing.getCategoryMapping FeedDatabase.getCategoryMapping
  rw [category]
  cases is : loaded.categoryMappings with
  | none => rfl
  | some rows =>
    dsimp only
    congr 1
    funext source
    have same := loaded.mappingsShown rows is
    have keys : (rows.map CategoryMapping.categorySource).Nodup := by
      rw [(same.map CategoryMapping.categorySource).nodup_iff]
      refine List.Nodup.map_on (fun first first_mem second second_mem equal => ?_) ?_
      · obtain ⟨first_row, first_owner⟩ := List.mem_filter.mp first_mem
        obtain ⟨second_row, second_owner⟩ := List.mem_filter.mp second_mem
        refine row_unique db.mappingKeys first_row second_row (Prod.ext ?_ equal)
        exact (eq_of_beq first_owner).trans (eq_of_beq second_owner).symm
      · exact (List.Nodup.of_map _ db.mappingKeys).filter _
    have agrees : Dict.Agrees (Dict.fill CategoryMapping.categorySource rows Dict.empty) (Dict.find CategoryMapping.categorySource rows) :=
      (Dict.agrees_empty _).fill keys (List.Subset.refl _)
    cases found : Dict.fill CategoryMapping.categorySource rows Dict.empty source with
    | some row =>
      obtain ⟨mem, key⟩ := Dict.key_of_find (agrees source row found)
      obtain ⟨there, owner⟩ := List.mem_filter.mp (same.mem_iff.mp mem)
      have row_found := Dict.find_of_mem db.mappingKeys there
      have own : (row.tenant, row.categorySource) = (loaded.listing.tenant, source) := Prod.ext (eq_of_beq owner) key
      rw [own] at row_found
      exact row_found.symm
    | none =>
      cases other : db.mapping loaded.listing.tenant source with
      | none => rfl
      | some row =>
        obtain ⟨there, key⟩ := Dict.key_of_find (show Dict.find FeedBuildContext.mappingKey db.categoryMappings
          (loaded.listing.tenant, source) = some row from other)
        have mem : row ∈ rows := by
          refine same.mem_iff.mpr (List.mem_filter.mpr ⟨there, ?_⟩)
          have owner : row.tenant = loaded.listing.tenant := congrArg Prod.fst key
          exact beq_iff_eq.mpr owner
        have own : row.categorySource = source := congrArg Prod.snd key
        have filled : (Dict.fill CategoryMapping.categorySource rows Dict.empty source).isSome :=
          Dict.isSome_fill (.inl ⟨row, mem, own⟩)
        rw [found] at filled
        cases filled

end MapBackend.Marketplaces.Avito
