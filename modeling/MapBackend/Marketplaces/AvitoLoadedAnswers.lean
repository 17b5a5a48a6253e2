import MapBackend.Marketplaces.AvitoFeedDocument
import MapBackend.Marketplaces.AvitoLoadedContext

/-!
Prepared addresses and the answers of a prepared context.
-/

namespace MapBackend.Marketplaces.Avito
open MapBackend.Core MapBackend.Core.Url MapBackend.Library

variable {db : NamedDatabase}

/-! ## Default addresses -/

namespace NamedDatabase

def accountAddresses (db : NamedDatabase) (account : ℕ) : List PlacementAddress :=
  db.addresses.filter fun row => row.account == account

/-- Among the active default addresses of the account, the first one of the database has the least name by code points. -/
def SameFirst (db : NamedDatabase) (account : ℕ) : Prop :=
  ∀ first ∈ db.defaultAddress account, ∀ row ∈ db.addresses, row.account = account → row.isActive = true → row.isDefault = true →
    db.sortKey first ≤ db.sortKey row

theorem sortKey_inj {first second : PlacementAddress} (first_mem : first ∈ db.addresses) (second_mem : second ∈ db.addresses)
    (same : db.sortKey first = db.sortKey second) : first = second :=
  row_unique db.addressKeys first_mem second_mem (congrArg (fun key => (ofLex key).2) same)

theorem sortKey_sorted (rows : List PlacementAddress) :
    (rows.insertionSort fun a b => db.sortKey a ≤ db.sortKey b).Pairwise fun a b => db.sortKey a ≤ db.sortKey b := by
  have total : Std.Total fun a b : PlacementAddress => db.sortKey a ≤ db.sortKey b := ⟨fun a b => le_total _ _⟩
  have trans : IsTrans PlacementAddress fun a b => db.sortKey a ≤ db.sortKey b := ⟨fun a b c => le_trans⟩
  exact List.pairwise_insertionSort _ rows

theorem firstDefault_perm {rows others : List PlacementAddress} (perm : rows.Perm others) (sub : others ⊆ db.addresses) :
    db.firstDefault rows = db.firstDefault others := by
  unfold firstDefault
  generalize before : rows.filter (fun row => row.isActive && row.isDefault) = defaults
  generalize after : others.filter (fun row => row.isActive && row.isDefault) = again
  have kept : defaults.Perm again := before ▸ after ▸ perm.filter _
  have inside {row : PlacementAddress} (mem : row ∈ again) : row ∈ db.addresses := by
    rw [← after] at mem
    exact sub (List.mem_filter.mp mem).1
  congr 1
  refine List.Perm.eq_of_pairwise (fun a b a_mem b_mem ab ba => ?_) (sortKey_sorted defaults) (sortKey_sorted again) ?_
  · have a_in := inside (kept.mem_iff.mp ((List.mem_insertionSort _).mp a_mem))
    have b_in := inside ((List.mem_insertionSort _).mp b_mem)
    exact sortKey_inj a_in b_in (le_antisymm ab ba)
  · exact ((List.perm_insertionSort _ _).trans kept).trans (List.perm_insertionSort _ _).symm

theorem mem_accountDefaults {account : ℕ} {row : PlacementAddress} :
    row ∈ (db.accountAddresses account).filter (fun row => row.isActive && row.isDefault) ↔
      row ∈ db.addresses ∧ row.account = account ∧ row.isActive = true ∧ row.isDefault = true := by
  simp only [accountAddresses, List.mem_filter, Bool.and_eq_true, beq_iff_eq]
  rw [and_assoc]

theorem firstDefault_eq_iff (account : ℕ) :
    db.firstDefault (db.accountAddresses account) = db.defaultAddress account ↔ db.SameFirst account := by
  have found (first : PlacementAddress) (is : db.defaultAddress account = some first) :
      first ∈ db.addresses ∧ first.account = account ∧ first.isActive = true ∧ first.isDefault = true := by
    rw [FeedDatabase.defaultAddress] at is
    have hit := List.find?_some is
    exact ⟨List.mem_of_find?_eq_some is, of_decide_eq_true hit⟩
  unfold firstDefault
  generalize sorts : ((db.accountAddresses account).filter fun row => row.isActive && row.isDefault).insertionSort
    (fun a b => db.sortKey a ≤ db.sortKey b) = sorted
  have members (row : PlacementAddress) : row ∈ sorted ↔
      row ∈ db.addresses ∧ row.account = account ∧ row.isActive = true ∧ row.isDefault = true := by
    rw [← sorts, List.mem_insertionSort]
    exact mem_accountDefaults
  have ordered : sorted.Pairwise fun a b => db.sortKey a ≤ db.sortKey b := sorts ▸ sortKey_sorted _
  cases sorted with
  | nil =>
    have none : db.defaultAddress account = none := by
      refine List.find?_eq_none.mpr fun row mem hit => ?_
      exact List.not_mem_nil ((members row).mpr ⟨mem, of_decide_eq_true hit⟩)
    simp [none, SameFirst]
  | cons least rest =>
    have own := (members least).mp List.mem_cons_self
    have least_le (row : PlacementAddress) (mem : row ∈ least :: rest) : db.sortKey least ≤ db.sortKey row := by
      rcases List.mem_cons.mp mem with rfl | later
      · exact le_rfl
      · exact (List.pairwise_cons.mp ordered).1 row later
    cases is : db.defaultAddress account with
    | none =>
      have hit := List.find?_eq_none.mp is least own.1
      exact absurd (decide_eq_true own.2) hit
    | some first =>
      have first_in := found first is
      constructor
      · intro same other is_other row mem owner active default
        obtain rfl : first = other := Option.some.inj (is.symm.trans is_other)
        obtain rfl : least = first := Option.some.inj same
        exact least_le row ((members row).mpr ⟨mem, owner, active, default⟩)
      · intro same
        have one := same first is least own.1 own.2.1 own.2.2.1 own.2.2.2
        have other := least_le first ((members first).mpr first_in)
        exact congrArg some (sortKey_inj own.1 first_in.1 (le_antisymm other one))

end NamedDatabase

/-! ## Loading addresses -/

namespace LoadedContext
open FeedBuildContext (registerDefault)

structure AddressGrowth (state later : AddressState) : Prop where
  addresses : ∀ id, (state.addresses id).isSome → (later.addresses id).isSome
  defaults : ∀ account, (state.defaults account).isSome → (later.defaults account).isSome
  explicit : state.explicit ⊆ later.explicit
  accounts : state.accounts ⊆ later.accounts

theorem AddressGrowth.refl (state : AddressState) : AddressGrowth state state :=
  ⟨fun _ => id, fun _ => id, List.Subset.refl _, List.Subset.refl _⟩

theorem AddressGrowth.trans {first second third : AddressState} (before : AddressGrowth first second)
    (after : AddressGrowth second third) : AddressGrowth first third where
  addresses id there := after.addresses id (before.addresses id there)
  defaults account there := after.defaults account (before.defaults account there)
  explicit := List.Subset.trans before.explicit after.explicit
  accounts := List.Subset.trans before.accounts after.accounts

/-- What is collected are rows of the database, and the defaults are those of prefetched accounts. -/
structure Collected (batch : List (LoadedListing db)) (state : AddressState) : Prop where
  agrees : state.addresses.Agrees db.address
  prefetched : ∀ account value, state.defaults account = some value →
    value = db.firstDefault (db.accountAddresses account) ∧
      ∃ loaded ∈ batch, loaded.listing.account.id = account ∧ loaded.placementAddresses.isSome

structure AddressAsked (state : AddressState) (loaded : LoadedListing db) : Prop where
  manual : loaded.placementAddress = none → ∀ id ∈ loaded.listing.placementAddress,
    (state.addresses id).isSome ∨ id ∈ state.explicit
  bulk : loaded.bulkPlacementAddress = none → ∀ id ∈ loaded.listing.bulkPlacementAddress,
    (state.addresses id).isSome ∨ id ∈ state.explicit
  prefetched : loaded.placementAddresses.isSome → (state.defaults loaded.listing.account.id).isSome
  missing : (state.defaults loaded.listing.account.id).isSome ∨ loaded.listing.account.id ∈ state.accounts

theorem AddressAsked.grow {state later : AddressState} {loaded : LoadedListing db} (asked : AddressAsked state loaded)
    (growth : AddressGrowth state later) : AddressAsked later loaded where
  manual none id own := (asked.manual none id own).imp (growth.addresses id) fun mem => growth.explicit mem
  bulk none id own := (asked.bulk none id own).imp (growth.addresses id) fun mem => growth.explicit mem
  prefetched there := growth.defaults _ (asked.prefetched there)
  missing := asked.missing.imp (growth.defaults _) fun mem => growth.accounts mem

theorem wantAddress_growth (state : AddressState) (relation : Option (Option PlacementAddress)) (id : Option ℕ) :
    AddressGrowth state (wantAddress state relation id) := by
  unfold wantAddress
  split
  · exact .refl state
  · exact { AddressGrowth.refl state with addresses := fun _ there => Dict.isSome_set _ _ (.inr there) }
  · exact { AddressGrowth.refl state with explicit := List.subset_append_right _ _ }

theorem wantAddress_collected {batch : List (LoadedListing db)} {state : AddressState} (collected : Collected batch state)
    {relation : Option (Option PlacementAddress)} {id : Option ℕ} (shown : ∀ loaded ∈ relation, loaded = id.bind db.address) :
    Collected batch (wantAddress state relation id) := by
  unfold wantAddress
  split
  · exact collected
  next row =>
    obtain ⟨key, -, found⟩ := Option.bind_eq_some_iff.mp (shown (some row) rfl).symm
    have own : row.id = key := (Dict.key_of_find found).2
    exact { collected with agrees := collected.agrees.set (own ▸ found) }
  · exact { collected with }

theorem wantAddress_asks (state : AddressState) {id : Option ℕ} :
    ∀ key ∈ id, ((wantAddress state none id).addresses key).isSome ∨ key ∈ (wantAddress state none id).explicit := by
  intro key own
  by_cases there : (state.addresses key).isSome
  · exact .inl there
  · refine .inr (List.mem_append_left _ (List.mem_filter.mpr ⟨Option.mem_toList.mpr own, ?_⟩))
    simpa using there

theorem wantDefault_growth (state : AddressState) (loaded : LoadedListing db) :
    AddressGrowth state (wantDefault state loaded) := by
  unfold wantDefault
  split
  · exact .refl state
  · split
    · exact
        { AddressGrowth.refl state with
          defaults := fun _ there => Dict.isSome_set _ _ (.inr there)
          addresses := fun _ there => Dict.isSome_fill (.inr there) }
    · exact { AddressGrowth.refl state with accounts := List.subset_cons_self _ _ }

theorem wantDefault_collected {batch : List (LoadedListing db)} {state : AddressState} (collected : Collected batch state)
    {loaded : LoadedListing db} (mem : loaded ∈ batch) : Collected batch (wantDefault state loaded) := by
  unfold wantDefault
  split
  · exact collected
  · split
    next rows is =>
      have perm := loaded.addressesShown rows is
      have sub : rows ⊆ db.addresses := fun row row_mem => (List.mem_filter.mp (perm.mem_iff.mp row_mem)).1
      refine ⟨collected.agrees.fill db.addressKeys sub, fun account value found => ?_⟩
      rcases Dict.of_set found with ⟨rfl, rfl⟩ | before
      · exact ⟨db.firstDefault_perm perm (List.filter_subset_self _), loaded, mem, rfl, by rw [is]; rfl⟩
      · exact collected.prefetched account value before
    · exact { collected with }

theorem wantDefault_asks (state : AddressState) (loaded : LoadedListing db) :
    (loaded.placementAddresses.isSome → ((wantDefault state loaded).defaults loaded.listing.account.id).isSome) ∧
      (((wantDefault state loaded).defaults loaded.listing.account.id).isSome ∨
        loaded.listing.account.id ∈ (wantDefault state loaded).accounts) := by
  unfold wantDefault
  split
  next known => exact ⟨fun _ => known, .inl known⟩
  · split
    next rows is =>
      have now := Dict.isSome_set state.defaults (db.firstDefault rows) (.inl (Eq.refl loaded.listing.account.id))
      exact ⟨fun _ => now, .inl now⟩
    next is =>
      refine ⟨fun there => ?_, .inr List.mem_cons_self⟩
      rw [is] at there
      cases there

theorem wantAddresses_step {batch : List (LoadedListing db)} {state : AddressState} (collected : Collected batch state)
    {loaded : LoadedListing db} (mem : loaded ∈ batch) :
    Collected batch (wantAddresses state loaded) ∧ AddressGrowth state (wantAddresses state loaded) ∧
      AddressAsked (wantAddresses state loaded) loaded := by
  have first := wantAddress_collected collected loaded.placementShown
  have first_growth := wantAddress_growth state loaded.placementAddress loaded.listing.placementAddress
  simp only [wantAddresses]
  generalize after_first : wantAddress state loaded.placementAddress loaded.listing.placementAddress = middle at *
  have second := wantAddress_collected first loaded.bulkShown
  have second_growth := wantAddress_growth middle loaded.bulkPlacementAddress loaded.listing.bulkPlacementAddress
  generalize after_second : wantAddress middle loaded.bulkPlacementAddress loaded.listing.bulkPlacementAddress = last at *
  have growth := wantDefault_growth last loaded
  obtain ⟨prefetched, missing⟩ := wantDefault_asks last loaded
  refine ⟨wantDefault_collected second mem, first_growth.trans (second_growth.trans growth), ?_, ?_, prefetched, missing⟩
  · intro none id own
    rw [none] at after_first
    subst after_first
    have later := second_growth.trans growth
    exact (wantAddress_asks state id own).imp (later.addresses id) fun asks => later.explicit asks
  · intro none id own
    rw [none] at after_second
    subst after_second
    exact (wantAddress_asks middle id own).imp (growth.addresses id) fun asks => growth.explicit asks

theorem wantAddresses_run {batch listings : List (LoadedListing db)} (sub : listings ⊆ batch) {state : AddressState}
    (collected : Collected batch state) :
    Collected batch (listings.foldl wantAddresses state) ∧ AddressGrowth state (listings.foldl wantAddresses state) ∧
      ∀ loaded ∈ listings, AddressAsked (listings.foldl wantAddresses state) loaded := by
  induction listings generalizing state with
  | nil => exact ⟨collected, .refl state, fun _ mem => absurd mem List.not_mem_nil⟩
  | cons _ _ ih =>
    obtain ⟨first_mem, sub⟩ := List.cons_subset.mp sub
    obtain ⟨step, growth, asked⟩ := wantAddresses_step collected first_mem
    obtain ⟨all, later, others⟩ := ih sub step
    refine ⟨all, growth.trans later, fun loaded mem => ?_⟩
    rcases List.mem_cons.mp mem with rfl | mem
    · exact asked.grow later
    · exact others loaded mem

/-- The default address of an account in a batch: a prefetched one, if any listing of the account has it. -/
structure PlacementReady (batch : List (LoadedListing db)) (context : LoadedContext) (loaded : LoadedListing db) : Prop where
  manual : loaded.placementAddress = none →
    loaded.listing.placementAddress.bind context.addresses = loaded.listing.placementAddress.bind db.address
  bulk : loaded.bulkPlacementAddress = none →
    loaded.listing.bulkPlacementAddress.bind context.addresses = loaded.listing.bulkPlacementAddress.bind db.address
  prefetched : (∃ other ∈ batch, other.listing.account.id = loaded.listing.account.id ∧ other.placementAddresses.isSome) →
    (context.defaultAddresses loaded.listing.account.id).join = db.firstDefault (db.accountAddresses loaded.listing.account.id)
  missing : (∀ other ∈ batch, other.listing.account.id = loaded.listing.account.id → other.placementAddresses = none) →
    (context.defaultAddresses loaded.listing.account.id).join = db.defaultAddress loaded.listing.account.id

theorem registerDefault_kept {accounts : List ℕ} {account : ℕ} {value : Option PlacementAddress} (rows : List PlacementAddress)
    {defaults : Dict ℕ (Option PlacementAddress)} (known : defaults account = some value) :
    rows.foldl (registerDefault accounts) defaults account = some value := by
  induction rows generalizing defaults with
  | nil => exact known
  | cons _ _ ih =>
    refine ih ?_
    unfold registerDefault
    split
    next registers =>
      rw [Dict.set_other, known]
      intro same
      have absent := registers.2.2.2
      rw [← same, known] at absent
      cases absent
    next => exact known

theorem loadAddresses_ready (batch : List (LoadedListing db)) {context : LoadedContext} (addresses : context.addresses = Dict.empty)
    (defaults : context.defaultAddresses = Dict.empty) :
    ∀ loaded ∈ batch, PlacementReady batch (loadAddresses batch context) loaded := by
  have start : Collected batch ⟨context.addresses, context.defaultAddresses, [], []⟩ := by
    rw [addresses, defaults]
    exact ⟨Dict.agrees_empty _, fun _ _ found => by cases found⟩
  obtain ⟨collected, -, asked⟩ := wantAddresses_run (List.Subset.refl batch) start
  intro loaded mem
  have own := asked loaded mem
  unfold loadAddresses
  generalize batch.foldl wantAddresses ⟨context.addresses, context.defaultAddresses, [], []⟩ = state at *
  dsimp only
  generalize reads : (db.addresses.filter fun row =>
    state.explicit.contains row.id || (state.accounts.contains row.account && row.isActive && row.isDefault)) = rows
  have sub : rows ⊆ db.addresses := reads ▸ List.filter_subset_self _
  have agrees := collected.agrees.fill db.addressKeys sub
  -- an identifier that is collected or asked for is loaded
  have loads (relation : Option ℕ) (settled : ∀ id ∈ relation, (state.addresses id).isSome ∨ id ∈ state.explicit) :
      relation.bind (Dict.fill PlacementAddress.id rows state.addresses) = relation.bind db.address := by
    cases relation with
    | none => rfl
    | some id =>
      refine agrees.eq ?_
      rcases settled id rfl with there | asks
      · exact .inl (Dict.isSome_fill (.inr there))
      · cases found : Dict.find PlacementAddress.id db.addresses id with
        | none => exact .inr rfl
        | some row =>
          obtain ⟨there, key⟩ := Dict.key_of_find found
          have read : row ∈ rows := by
            rw [← reads]
            refine List.mem_filter.mpr ⟨there, ?_⟩
            rw [show row.id = id from key, List.contains_iff_mem.mpr asks]
            rfl
          exact .inl (Dict.isSome_fill (.inl ⟨row, read, key⟩))
  refine ⟨fun none => loads _ (own.manual none), fun none => loads _ (own.bulk none), fun ⟨other, other_mem, same, there⟩ => ?_,
    fun unloaded => ?_⟩
  · dsimp only
    have known := (asked other other_mem).prefetched there
    rw [same] at known
    obtain ⟨value, is⟩ := Option.isSome_iff_exists.mp known
    have kept := @registerDefault_kept state.accounts _ _ rows _ is
    rw [FeedBuildContext.foldl_setdefault_none _ (.inr (by rw [kept]; rfl)), kept]
    exact (collected.prefetched _ value is).1
  · have absent : state.defaults loaded.listing.account.id = none := by
      cases is : state.defaults loaded.listing.account.id with
      | none => rfl
      | some value =>
        obtain ⟨-, other, other_mem, same, there⟩ := collected.prefetched _ value is
        rw [unloaded other other_mem same] at there
        cases there
    have asks : loaded.listing.account.id ∈ state.accounts := by
      refine own.missing.resolve_left fun there => ?_
      rw [absent] at there
      cases there
    dsimp only
    rw [FeedBuildContext.foldl_setdefault_none _ (.inl asks), FeedBuildContext.registerDefault_apply asks, absent, ← reads,
      FeedBuildContext.find?_filter_of_imp, FeedDatabase.defaultAddress]
    · cases db.addresses.find? _ <;> rfl
    · intro row hit
      obtain ⟨owner, active, default⟩ := of_decide_eq_true hit
      rw [owner, active, default, List.contains_iff_mem.mpr asks]
      exact Bool.or_true _

end LoadedContext

/-! ## Answers -/

namespace LoadedContext

variable {taxonomy : Taxonomy} {batch : List (LoadedListing db)} {context : LoadedContext}

structure Prepared (taxonomy : Taxonomy) (batch : List (LoadedListing db)) (context : LoadedContext) : Prop where
  mapped : Mapped db.toFeedDatabase context.categoryMappings context.mappingTenantsLoaded
  closed : Closed db.toFeedDatabase [] context.categories
  specs : ∀ id spec, context.categorySpecs id = some spec → ∃ row, db.category id = some row ∧ spec = db.specOf taxonomy row
  tenants : ∀ loaded ∈ batch, loaded.listing.tenant ∈ context.mappingTenantsLoaded
  categories : ∀ loaded ∈ batch, CategoryReady context.categories loaded
  placements : ∀ loaded ∈ batch, PlacementReady batch context loaded

theorem registerMappings_frame (listings : List (LoadedListing db)) (context : LoadedContext) :
    ∃ mappings tenants, listings.foldl registerMappings context =
      { context with categoryMappings := mappings, mappingTenantsLoaded := tenants } := by
  induction listings generalizing context with
  | nil => exact ⟨_, _, rfl⟩
  | cons first _ ih =>
    have step : ∃ mappings tenants, context.registerMappings first =
        { context with categoryMappings := mappings, mappingTenantsLoaded := tenants } := by
      unfold registerMappings
      split
      · exact ⟨_, _, rfl⟩
      · split <;> exact ⟨_, _, rfl⟩
    obtain ⟨mappings, tenants, same⟩ := step
    rw [List.foldl_cons, same]
    obtain ⟨later, all, others⟩ := ih { context with categoryMappings := mappings, mappingTenantsLoaded := tenants }
    exact ⟨later, all, others⟩

theorem prepareBatch_prepared (mapped : Mapped db.toFeedDatabase context.categoryMappings context.mappingTenantsLoaded) :
    Prepared taxonomy batch (prepareBatch context batch) := by
  obtain ⟨all, tenants⟩ := @loadCategoryMappings_mapped db ⟨context.categoryMappings,
    context.mappingTenantsLoaded, Dict.empty, Dict.empty, Dict.empty, Dict.empty⟩ batch mapped
  simp only [prepareBatch]
  obtain ⟨_, _, registers⟩ := registerMappings_frame batch ⟨context.categoryMappings,
    context.mappingTenantsLoaded, Dict.empty, Dict.empty, Dict.empty, Dict.empty⟩
  simp only [loadCategoryMappings, registers] at *
  generalize loads : LoadedContext.mk _ _ Dict.empty Dict.empty Dict.empty Dict.empty = middle at *
  obtain ⟨closed, ready⟩ := @loadCategories_ready db middle batch (loads ▸ rfl)
  have placed := @loadAddresses_ready db batch (loadCategories batch middle) (loads ▸ rfl) (loads ▸ rfl)
  exact
    { mapped := by
        subst loads
        exact all
      closed
      specs := fun id spec found => by
        subst loads
        cases found
      tenants := by
        subst loads
        exact tenants
      categories := ready
      placements := placed }

theorem Prepared.categoryFor (prepared : Prepared taxonomy batch context) {loaded : LoadedListing db} (mem : loaded ∈ batch) :
    (context.categoryFor loaded).1 = context ∧
      (context.categoryFor loaded).2.map CategoryObject.row = db.categoryOf loaded.listing.product ∧
      ∀ object ∈ (context.categoryFor loaded).2, Cached db.toFeedDatabase context.categories object := by
  have ready := prepared.categories loaded mem
  unfold LoadedContext.categoryFor
  cases is : loaded.category with
  | none =>
    refine ⟨rfl, ?_, fun object found => ?_⟩
    · dsimp only
      rw [FeedDatabase.categoryOf]
      cases own : loaded.listing.product.catalogCategory with
      | none => rfl
      | some id => exact ready.missing is id own
    · obtain ⟨id, -, entry⟩ := Option.bind_eq_some_iff.mp found
      exact ⟨(prepared.closed.shown id object entry).1, prepared.closed.nested id object entry⟩
  | some relation =>
    obtain ⟨same, shows⟩ := loaded.categoryShown relation is
    cases relation with
    | none => exact ⟨rfl, same, fun object found => by cases found⟩
    | some object =>
      have chained := ready.present object is
      refine ⟨?_, same, fun other found => ?_⟩
      · dsimp only
        rw [registerCategory_chained chained]
      · obtain rfl : object = other := Option.some.inj found
        exact ⟨shows object rfl, chained⟩

theorem Prepared.categoryMapping (prepared : Prepared taxonomy batch context) {loaded : LoadedListing db} (mem : loaded ∈ batch) :
    context.categoryMapping loaded = (context, db.getCategoryMapping loaded.listing) := by
  obtain ⟨same, row, -⟩ := prepared.categoryFor mem
  have tenant := prepared.tenants loaded mem
  unfold LoadedContext.categoryMapping
  rw [if_pos (List.contains_iff_mem.mpr tenant)]
  dsimp only
  rw [same, row, FeedDatabase.getCategoryMapping]
  congr 2
  funext source
  exact prepared.mapped.loaded _ tenant source

def specFor (taxonomy : Taxonomy) (loaded : LoadedListing db) : Spec :=
  ((db.categoryOf loaded.listing.product).map (db.specOf taxonomy)).getD Spec.empty

theorem Prepared.avitoSpec (prepared : Prepared taxonomy batch context) {loaded : LoadedListing db} (mem : loaded ∈ batch) :
    ∃ specs, context.avitoSpec taxonomy loaded = ({ context with categorySpecs := specs }, specFor taxonomy loaded) ∧
      Prepared taxonomy batch { context with categorySpecs := specs } := by
  obtain ⟨same, row, cached⟩ := prepared.categoryFor mem
  unfold LoadedContext.avitoSpec specFor
  rw [← row]
  dsimp only
  rw [same]
  cases is : (context.categoryFor loaded).2 with
  | none => exact ⟨context.categorySpecs, rfl, prepared⟩
  | some object =>
    have here := cached object is
    have own := here.shows.row
    cases known : context.categorySpecs object.row.id with
    | some spec =>
      obtain ⟨other, other_row, value⟩ := prepared.specs _ spec known
      have one : other = object.row := Option.some.inj (other_row.symm.trans own)
      refine ⟨context.categorySpecs, ?_, prepared⟩
      simp only [known]
      rw [value, one]
      rfl
    | none =>
      have resolved := prepared.closed.reads.resolve taxonomy db.categories.length here
      refine ⟨context.categorySpecs.set object.row.id (db.specOf taxonomy object.row), ?_, ?_⟩
      · simp only [known, resolved]
        rfl
      · refine { prepared with specs := fun id spec found => ?_, placements := fun loaded mem => ?_ }
        · rcases Dict.of_set found with ⟨rfl, rfl⟩ | before
          · exact ⟨object.row, own, rfl⟩
          · exact prepared.specs id spec before
        · exact { prepared.placements loaded mem with }

theorem Prepared.placementSources (prepared : Prepared taxonomy batch context) {loaded : LoadedListing db} (mem : loaded ∈ batch) :
    context.placementSources loaded =
      { loaded.placement with account := (context.defaultAddresses loaded.listing.account.id).join } := by
  have ready := prepared.placements loaded mem
  have manual : loaded.placementAddress.getD (loaded.listing.placementAddress.bind context.addresses) =
      loaded.placementAddress.getD (loaded.listing.placementAddress.bind db.address) := by
    cases is : loaded.placementAddress with
    | none => exact ready.manual is
    | some => rfl
  have bulk : loaded.bulkPlacementAddress.getD (loaded.listing.bulkPlacementAddress.bind context.addresses) =
      loaded.bulkPlacementAddress.getD (loaded.listing.bulkPlacementAddress.bind db.address) := by
    cases is : loaded.bulkPlacementAddress with
    | none => exact ready.bulk is
    | some => rfl
  unfold LoadedContext.placementSources LoadedListing.placement
  rw [manual, bulk]

def answerWith (taxonomy : Taxonomy) (loaded : LoadedListing db) (account : Option PlacementAddress) : FeedAnswer :=
  feedAnswer loaded.listing
    (((db.categoryOf loaded.listing.product).map (ancestry db.parentOf db.categories.length)).getD [])
    (db.getCategoryMapping loaded.listing) (specFor taxonomy loaded) { loaded.placement with account }

theorem Prepared.answer (prepared : Prepared taxonomy batch context) {loaded : LoadedListing db} (mem : loaded ∈ batch) :
    (context.answer taxonomy loaded).2 =
        answerWith taxonomy loaded (context.defaultAddresses loaded.listing.account.id).join ∧
      Prepared taxonomy batch (context.answer taxonomy loaded).1 := by
  obtain ⟨specs, spec, later⟩ := prepared.avitoSpec mem
  obtain ⟨same, row, cached⟩ := later.categoryFor mem
  have above : ancestorsUp LoadedContext.parentOf db.categories.length context.categories
        (LoadedContext.categoryFor { context with categorySpecs := specs } loaded).2 =
      (context.categories, ((db.categoryOf loaded.listing.product).map (ancestry db.parentOf db.categories.length)).getD []) := by
    rw [← row]
    cases is : (LoadedContext.categoryFor { context with categorySpecs := specs } loaded).2 with
    | none => cases db.categories.length <;> rfl
    | some object => exact later.closed.reads.ancestors (cached object is) _
  unfold LoadedContext.answer
  rw [prepared.categoryMapping mem]
  dsimp only
  rw [spec]
  dsimp only
  rw [same]
  dsimp only
  rw [above]
  dsimp only
  rw [later.placementSources mem]
  exact ⟨rfl, later⟩

theorem plain_answer (taxonomy : Taxonomy) (loaded : LoadedListing db) :
    loaded.answer taxonomy = answerWith taxonomy loaded loaded.getAccountDefaultAddress := by
  obtain ⟨row, shows⟩ := plain_category loaded
  unfold LoadedListing.answer answerWith LoadedListing.avitoSpec specFor
  rw [plain_mapping, ← row]
  cases is : loaded.catalogCategory with
  | none =>
    cases db.categories.length <;> rfl
  | some object =>
    have reads := @plain_reads db
    dsimp only
    rw [reads.ancestors (shows object is), reads.resolve taxonomy _ (shows object is)]
    rfl

theorem Prepared.answers {listings : List (LoadedListing db)} (sub : listings ⊆ batch) (prepared : Prepared taxonomy batch context) :
    Prepared taxonomy batch (context.answers taxonomy listings) := by
  unfold LoadedContext.answers
  induction listings generalizing context with
  | nil => exact prepared
  | cons _ _ ih =>
    obtain ⟨mem, sub⟩ := List.cons_subset.mp sub
    exact ih sub (prepared.answer mem).2

theorem build_mapped (taxonomy : Taxonomy) (batches : List (List (LoadedListing db))) :
    Mapped db.toFeedDatabase (build taxonomy batches).categoryMappings (build taxonomy batches).mappingTenantsLoaded := by
  have run (context : LoadedContext) (mapped : Mapped db.toFeedDatabase context.categoryMappings context.mappingTenantsLoaded) :
      Mapped db.toFeedDatabase
        (batches.foldl (fun context batch => (context.prepareBatch batch).answers taxonomy batch) context).categoryMappings
        (batches.foldl (fun context batch => (context.prepareBatch batch).answers taxonomy batch) context).mappingTenantsLoaded := by
    induction batches generalizing context with
    | nil => exact mapped
    | cons batch _ ih =>
      have prepared : Prepared taxonomy batch (prepareBatch context batch) := prepareBatch_prepared mapped
      exact ih _ (prepared.answers (List.Subset.refl _)).mapped
  exact run empty ⟨Dict.agrees_empty _, fun _ mem => absurd mem List.not_mem_nil⟩

theorem getAccountDefaultAddress_prefetched {loaded : LoadedListing db} (there : loaded.placementAddresses.isSome) :
    loaded.getAccountDefaultAddress = db.firstDefault (db.accountAddresses loaded.listing.account.id) := by
  unfold LoadedListing.getAccountDefaultAddress
  cases is : loaded.placementAddresses with
  | none =>
    rw [is] at there
    cases there
  | some rows => exact db.firstDefault_perm (loaded.addressesShown rows is) (List.filter_subset_self _)

theorem answerWith_inj {loaded : LoadedListing db} {first second : Option PlacementAddress} :
    answerWith taxonomy loaded first = answerWith taxonomy loaded second ↔ first = second :=
  ⟨fun same => congrArg (fun answer => answer.placement.account) same, fun same => same ▸ rfl⟩

/-- Whatever is loaded, the build context answers for a listing as the plain resolvers do, with one exception: the addresses of
its account are prefetched for another listing of the batch but not for this one, and the two orders differ. -/
theorem context_answers (taxonomy : Taxonomy) (earlier : List (List (LoadedListing db))) (before after : List (LoadedListing db))
    (loaded : LoadedListing db) :
    ((((build taxonomy earlier).prepareBatch (before ++ loaded :: after)).answers taxonomy before).answer taxonomy loaded).2 =
        loaded.answer taxonomy ↔
      loaded.placementAddresses.isSome ∨
        (∀ other ∈ before ++ loaded :: after, other.listing.account.id = loaded.listing.account.id → other.placementAddresses = none) ∨
        db.SameFirst loaded.listing.account.id := by
  have mem : loaded ∈ before ++ loaded :: after := List.mem_append_right _ List.mem_cons_self
  have prepared : Prepared taxonomy (before ++ loaded :: after) ((build taxonomy earlier).prepareBatch (before ++ loaded :: after)) :=
    prepareBatch_prepared (build_mapped taxonomy earlier)
  have now := prepared.answers (List.subset_append_left before (loaded :: after))
  have ready := now.placements loaded mem
  rw [(now.answer mem).1, plain_answer, answerWith_inj]
  cases is : loaded.placementAddresses with
  | some =>
    have there : loaded.placementAddresses.isSome := by
      rw [is]
      rfl
    rw [ready.prefetched ⟨loaded, mem, rfl, there⟩, getAccountDefaultAddress_prefetched there]
    simp
  | none =>
    have plain : loaded.getAccountDefaultAddress = db.defaultAddress loaded.listing.account.id := by
      unfold LoadedListing.getAccountDefaultAddress
      rw [is]
    rw [plain]
    by_cases unloaded : ∀ other ∈ before ++ loaded :: after, other.listing.account.id = loaded.listing.account.id →
      other.placementAddresses = none
    · exact ⟨fun _ => .inr (.inl unloaded), fun _ => ready.missing unloaded⟩
    · have prefetched : ∃ other ∈ before ++ loaded :: after, other.listing.account.id = loaded.listing.account.id ∧
          other.placementAddresses.isSome := by
        push Not at unloaded
        obtain ⟨other, other_mem, same, there⟩ := unloaded
        exact ⟨other, other_mem, same, Option.isSome_iff_ne_none.mpr there⟩
      rw [ready.prefetched prefetched, db.firstDefault_eq_iff]
      refine ⟨fun same => .inr (.inr same), fun holds => ?_⟩
      rcases holds with there | none | same
      · cases there
      · exact absurd none unloaded
      · exact same

/-! ## Two default addresses -/

def defaultRow (id : ℕ) : PlacementAddress := ⟨id, 1, [], [], [], [], true, true⟩

def twoDefaults : NamedDatabase where
  __ := bareDatabase
  addresses := [defaultRow 1, defaultRow 2]
  addressKeys := by decide
  addressName id := if id = 1 then ['a'] else ['B']

/-- A listing of the first account without a category and without addresses of its own. -/
def plainListing (placementAddresses : Option (List PlacementAddress))
    (shown : ∀ rows ∈ placementAddresses, rows = [defaultRow 1, defaultRow 2]) : LoadedListing twoDefaults where
  listing := titledListing []
  category := none
  placementAddress := none
  bulkPlacementAddress := none
  categoryMappings := none
  placementAddresses
  categoryShown _ loaded := by cases loaded
  placementShown _ loaded := by cases loaded
  bulkShown _ loaded := by cases loaded
  mappingsShown _ loaded := by cases loaded
  addressesShown rows loaded := by
    rw [shown rows loaded]
    exact List.Perm.refl _

def prefetchedListing : LoadedListing twoDefaults :=
  plainListing (some [defaultRow 1, defaultRow 2]) fun _ loaded => (Option.some.inj loaded).symm

def unloadedListing : LoadedListing twoDefaults := plainListing none fun _ loaded => by cases loaded

/-- The context gives the second listing the address "B", which is prefetched with the first one; alone it has "a". -/
theorem context_answers_other :
    ((((build bareSettings.taxonomy ([] : List (List (LoadedListing twoDefaults)))).prepareBatch
      [prefetchedListing, unloadedListing]).answers bareSettings.taxonomy [prefetchedListing]).answer
        bareSettings.taxonomy unloadedListing).2 ≠ unloadedListing.answer bareSettings.taxonomy := by
  intro same
  have ids := congrArg (fun answer : FeedAnswer => answer.placement.account.map PlacementAddress.id) same
  exact absurd ids (by decide +kernel)

end LoadedContext

end MapBackend.Marketplaces.Avito
