import MapBackend.Products.CategoryInference

/-!
The inferred category and the order of the rows.
-/

namespace MapBackend.Products.Inference
open MapBackend.Library MapBackend.Core

/-- `ordering = ['name']` under the collation of the database. -/
def byName (collate : Text → Text → Bool) (a b : TenantCatalogCategory) : Bool := collate a.name b.name

def Scored (alphabet : Alphabet) (product : Product) (categories : List TenantCatalogCategory) : Prop :=
  ∃ category ∈ categories, ∃ key, keyOf alphabet product categories category = some key ∧ 2 ≤ (ofLex key).1

def Greatest (alphabet : Alphabet) (product : Product) (categories : List TenantCatalogCategory) (category : TenantCatalogCategory) : Prop :=
  category ∈ categories ∧ ∃ key, keyOf alphabet product categories category = some key ∧
    ∀ rival ∈ categories, ∀ other, keyOf alphabet product categories rival = some other → other ≤ key

/-- The result is an active category: the greatest one where some score suffices, else the general node or none. -/
structure Chosen (alphabet : Alphabet) (product : Product) (active : List TenantCatalogCategory) (result : Option TenantCatalogCategory) : Prop where
  present : ∀ category ∈ result, category ∈ active
  scored : readable alphabet product = true → Scored alphabet product (matchable active) →
    ∃ category ∈ result, Greatest alphabet product (matchable active) category
  unscored : ¬ (readable alphabet product = true ∧ Scored alphabet product (matchable active)) →
    ∀ category ∈ result, isAutoPartsFallback alphabet category = true

/-- Every order of the active rows gives the same product and the same category, and it is the right one. -/
def OrderFree (alphabet : Alphabet) (collate : Text → Text → Bool) (active : List TenantCatalogCategory) (product : Product) : Prop :=
  (∀ returned other, Arranges (byName collate) active returned → Arranges (byName collate) active other →
    inferProductTenantCategory alphabet returned product = inferProductTenantCategory alphabet other product) ∧
  ∀ returned, Arranges (byName collate) active returned →
    Chosen alphabet product active (inferProductTenantCategory alphabet returned product).2

def Settled (alphabet : Alphabet) (collate : Text → Text → Bool) (active : List TenantCatalogCategory) (product : Product) : Prop :=
  readable alphabet product = false ∨ Scored alphabet product (matchable active) ∨
    ∀ a b, First (byName collate) (isAutoPartsFallback alphabet) (matchable active) a →
      First (byName collate) (isAutoPartsFallback alphabet) (matchable active) b → a = b

section Loops

variable {byId : ℕ → Option TenantCatalogCategory} {categories : List TenantCatalogCategory}

theorem climb_fuel (loaded : ∀ id category, byId id = some category → category ∈ categories) (fuel : ℕ) (seen : List ℕ)
    (distinct : seen.Nodup) (inside : seen ⊆ categories.map (·.id)) (enough : categories.length < fuel + seen.length)
    (node : TenantCatalogCategory) (there : node ∈ categories) : climb byId (fuel + 1) seen node = climb byId fuel seen node := by
  induction fuel generalizing seen node with
  | zero =>
    have full := (List.subperm_of_subset distinct inside).length_le
    rw [List.length_map] at full
    omega
  | succ _ ih =>
    rw [climb]
    conv_rhs => rw [climb]
    by_cases known : seen.contains node.id = true
    · rw [if_pos known, if_pos known]
    · rw [if_neg known, if_neg known]
      cases parent : node.parentId.bind byId with
      | none => rfl
      | some above =>
        obtain ⟨id, -, found⟩ := Option.bind_eq_some_iff.mp parent
        refine congrArg (node :: ·) (ih (node.id :: seen) ?_ ?_ ?_ above (loaded id above found))
        · exact List.nodup_cons.mpr ⟨fun mem => known (List.contains_iff_mem.mpr mem), distinct⟩
        · exact List.cons_subset.mpr ⟨List.mem_map_of_mem there, inside⟩
        · rw [List.length_cons]
          omega

theorem upwards_fuel {category : TenantCatalogCategory} (mem : category ∈ categories) (more : ℕ) :
    climb (categoriesById categories) (categories.length + 1 + more) [] category = upwards categories category := by
  induction more with
  | zero => rfl
  | succ _ ih =>
    rw [← ih, ← add_assoc]
    refine climb_fuel (fun id _ found => List.mem_of_find?_eq_some found) _ [] List.nodup_nil (List.nil_subset _) ?_ category mem
    rw [List.length_nil]
    omega

end Loops

section Orders

variable {alphabet : Alphabet} {product : Product} {categories other active : List TenantCatalogCategory}

def kept (categories : List TenantCatalogCategory) (category : TenantCatalogCategory) : Bool :=
  !(hasInternalAutoPartsTree categories && isAutoParts category && category.externalSource == avito)

theorem matchable_eq (categories : List TenantCatalogCategory) : matchable categories = categories.filter (kept categories) := by
  unfold matchable kept
  by_cases internal : hasInternalAutoPartsTree categories = true
  · simp [internal]
  · simp [internal]

theorem matchable_subset : matchable categories ⊆ categories := by
  rw [matchable_eq]
  exact List.filter_subset_self _

theorem hasInternalAutoPartsTree_perm (perm : categories.Perm other) : hasInternalAutoPartsTree categories = hasInternalAutoPartsTree other := by
  rw [Bool.eq_iff_iff, hasInternalAutoPartsTree, hasInternalAutoPartsTree, List.any_eq_true, List.any_eq_true]
  simp only [perm.mem_iff]

theorem kept_perm (perm : categories.Perm other) : kept categories = kept other := by
  funext category
  rw [kept, hasInternalAutoPartsTree_perm perm, kept]

theorem matchable_perm (perm : categories.Perm other) : (matchable categories).Perm (matchable other) := by
  rw [matchable_eq, matchable_eq, kept_perm perm]
  exact perm.filter _

theorem matchable_keys (keys : (categories.map (·.id)).Nodup) : ((matchable categories).map (·.id)).Nodup := by
  rw [matchable_eq]
  exact keys.sublist (List.filter_sublist.map _)

theorem keyOf_perm (keys : (categories.map (·.id)).Nodup) (perm : categories.Perm other) :
    keyOf alphabet product categories = keyOf alphabet product other := by
  have byId : categoriesById categories = categoriesById other := by
    funext id
    exact find_key_perm keys perm id
  have walks : upwards categories = upwards other := by
    funext category
    rw [upwards, byId, perm.length_eq, upwards]
  funext category
  simp only [keyOf, categoryKey, secondaryBranchKey, categoryDepth, walks]

theorem keyOf_id {category : TenantCatalogCategory} {key : CategoryKey} (found : keyOf alphabet product categories category = some key) :
    (ofLex (ofLex key).2).2 = -(category.id : ℤ) := by
  unfold keyOf categoryKey at found
  simp only at found
  split at found
  · cases found
  · rw [← Option.some.inj found]
    rfl

theorem keyOf_apart (keys : (categories.map (·.id)).Nodup) : ∀ a ∈ categories, ∀ b ∈ categories, ∀ key,
    keyOf alphabet product categories a = some key → keyOf alphabet product categories b = some key → a = b := by
  intro a a_mem b b_mem key a_key b_key
  have same := (keyOf_id a_key).symm.trans (keyOf_id b_key)
  exact List.inj_on_of_nodup_map keys a_mem b_mem (by omega)

theorem scored_perm (keys : (categories.map (·.id)).Nodup) (perm : categories.Perm other) :
    Scored alphabet product categories ↔ Scored alphabet product other := by
  simp only [Scored, keyOf_perm keys perm, perm.mem_iff]

/-! ## The two ways to a category -/

theorem bestCategory_scored (scored : Scored alphabet product categories) :
    ∃ best key, scanBest (keyOf alphabet product categories) categories = some (best, key) ∧
      bestCategory alphabet product categories = some best ∧ Greatest alphabet product categories best := by
  obtain ⟨category, mem, key, own, enough⟩ := scored
  have leads := scanBest_leads (keyOf alphabet product categories) categories
  unfold bestCategory
  cases scan : scanBest (keyOf alphabet product categories) categories with
  | none =>
    rw [scan] at leads
    rw [leads category mem] at own
    cases own
  | some best =>
    rw [scan] at leads
    obtain ⟨there, found, greatest⟩ := leads
    have above : key ≤ best.2 := greatest category mem key own
    have suffices_too : ¬ (ofLex best.2).1 < 2 := not_lt.mpr (enough.trans (Prod.Lex.monotone_fst _ _ above))
    exact ⟨best.1, best.2, rfl, if_neg suffices_too, there, best.2, found, greatest⟩

theorem bestCategory_unscored (unscored : ¬ Scored alphabet product categories) :
    bestCategory alphabet product categories = autoPartsFallbackCategory alphabet categories := by
  have leads := scanBest_leads (keyOf alphabet product categories) categories
  unfold bestCategory
  cases scan : scanBest (keyOf alphabet product categories) categories with
  | none => rfl
  | some best =>
    rw [scan] at leads
    refine if_pos (not_le.mp fun enough => unscored ?_)
    exact ⟨best.1, leads.1, best.2, leads.2.1, enough⟩

theorem bestCategory_perm (keys : (categories.map (·.id)).Nodup) (perm : categories.Perm other)
    (scored : Scored alphabet product categories) : bestCategory alphabet product categories = bestCategory alphabet product other := by
  obtain ⟨_, _, scan, chosen, -⟩ := bestCategory_scored scored
  obtain ⟨_, _, scan', chosen', -⟩ := bestCategory_scored ((scored_perm keys perm).mp scored)
  rw [scanBest_perm perm (keyOf_apart keys), keyOf_perm keys perm, scan'] at scan
  rw [chosen, chosen', (Prod.mk.inj (Option.some.inj scan)).1]

theorem infer_unreadable (unreadable : readable alphabet product = false) :
    inferProductTenantCategory alphabet categories product = (product, none) := if_pos unreadable

theorem infer_category (reads : readable alphabet product = true) :
    (inferProductTenantCategory alphabet categories product).2 = bestCategory alphabet product (matchable categories) := by
  rw [inferProductTenantCategory, if_neg (by simp [reads])]
  cases bestCategory alphabet product (matchable categories) <;> rfl

theorem infer_congr (same : bestCategory alphabet product (matchable categories) = bestCategory alphabet product (matchable other)) :
    inferProductTenantCategory alphabet categories product = inferProductTenantCategory alphabet other product := by
  rw [inferProductTenantCategory, same, inferProductTenantCategory]

theorem infer_chosen (keys : (active.map (·.id)).Nodup) (perm : categories.Perm active) :
    Chosen alphabet product active (inferProductTenantCategory alphabet categories product).2 := by
  have keys' : ((matchable active).map (·.id)).Nodup := matchable_keys keys
  have perm' : (matchable active).Perm (matchable categories) := matchable_perm perm.symm
  by_cases reads : readable alphabet product = true
  · rw [infer_category reads]
    by_cases scored : Scored alphabet product (matchable active)
    · obtain ⟨best, _, -, chosen, greatest⟩ := bestCategory_scored scored
      rw [← bestCategory_perm keys' perm' scored, chosen]
      refine ⟨fun c mem => ?_, fun _ _ => ⟨best, rfl, greatest⟩, fun without => absurd ⟨reads, scored⟩ without⟩
      exact Option.mem_some.mp mem ▸ matchable_subset greatest.1
    · rw [bestCategory_unscored fun found => scored ((scored_perm keys' perm').mpr found)]
      refine ⟨fun c mem => ?_, fun _ found => absurd found scored, fun _ c mem => List.find?_some (Option.mem_def.mp mem)⟩
      exact perm.mem_iff.mp (matchable_subset (List.mem_of_find?_eq_some (Option.mem_def.mp mem)))
  · rw [infer_unreadable (eq_false_of_ne_true reads)]
    refine ⟨fun c mem => ?_, fun found => absurd found reads, fun _ c mem => ?_⟩
    · cases mem
    · cases mem

theorem autoPartsFallbackCategory_eq (perm : categories.Perm active) :
    autoPartsFallbackCategory alphabet (matchable categories) = (categories.filter (kept active)).find? (isAutoPartsFallback alphabet) := by
  rw [autoPartsFallbackCategory, matchable_eq, kept_perm perm]

/-- The inferred category is the same in every order of the rows, and the right one, exactly where a score suffices or only one general
node can be the first by name. -/
theorem inference_order_free (alphabet : Alphabet) (collate : Text → Text → Bool)
    (trans : ∀ a b c, collate a b = true → collate b c = true → collate a c = true) (total : ∀ a b, (collate a b || collate b a) = true)
    (domains : List TenantCatalogDomain) (rows : List TenantCatalogCategory) (keys : (rows.map (·.id)).Nodup) (product : Product) :
    OrderFree alphabet collate (activeCategories domains rows product.tenant) product ↔
      Settled alphabet collate (activeCategories domains rows product.tenant) product := by
  have active_keys : ((activeCategories domains rows product.tenant).map (·.id)).Nodup := keys.sublist (List.filter_sublist.map _)
  generalize activeCategories domains rows product.tenant = active at active_keys
  have matched_keys : ((matchable active).map (·.id)).Nodup := matchable_keys active_keys
  have search := @find_filter_arranged_iff _ (byName collate) active (isAutoPartsFallback alphabet) _ (kept active)
    (fun a b c => trans a.name b.name c.name) (fun a b => total a.name b.name) (.of_map _ active_keys)
  rw [← matchable_eq] at search
  constructor
  · rintro ⟨same, -⟩
    by_cases reads : readable alphabet product = true
    · by_cases scored : Scored alphabet product (matchable active)
      · exact .inr (.inl scored)
      · refine .inr (.inr (search.mp fun l l' arranged arranged' => ?_))
        have fallback {l : List TenantCatalogCategory} (arranged : Arranges (byName collate) active l) :
            (inferProductTenantCategory alphabet l product).2 = (l.filter (kept active)).find? (isAutoPartsFallback alphabet) := by
          have unscored : ¬ Scored alphabet product (matchable l) := fun found =>
            scored ((scored_perm matched_keys (matchable_perm arranged.1.symm)).mpr found)
          rw [infer_category reads, bestCategory_unscored unscored, autoPartsFallbackCategory_eq arranged.1]
        rw [← fallback arranged, ← fallback arranged', same l l' arranged arranged']
    · exact .inl (eq_false_of_ne_true reads)
  · intro settled
    refine ⟨fun l l' arranged arranged' => ?_, fun l arranged => infer_chosen active_keys arranged.1⟩
    by_cases reads : readable alphabet product = true
    · refine infer_congr ?_
      have perm := matchable_perm arranged.1.symm
      have perm' := matchable_perm arranged'.1.symm
      by_cases scored : Scored alphabet product (matchable active)
      · exact (bestCategory_perm matched_keys perm scored).symm.trans (bestCategory_perm matched_keys perm' scored)
      · have unique := (settled.resolve_left fun unreadable => by simp [unreadable] at reads).resolve_left scored
        rw [bestCategory_unscored fun found => scored ((scored_perm matched_keys perm).mpr found),
          bestCategory_unscored fun found => scored ((scored_perm matched_keys perm').mpr found),
          autoPartsFallbackCategory_eq arranged.1, autoPartsFallbackCategory_eq arranged'.1]
        exact search.mpr unique l l' arranged arranged'
    · rw [infer_unreadable (eq_false_of_ne_true reads), infer_unreadable (eq_false_of_ne_true reads)]

end Orders

section Runs

def twoAlphabetLower (c : Char) : Char :=
  if 'А'.toNat ≤ c.toNat ∧ c.toNat ≤ 'Я'.toNat then Char.ofNat (c.toNat + 32) else if c = 'Ё' then 'ё' else c.toLower

def catalogAlphabet : Alphabet where
  lower text := text.map twoAlphabetLower
  isAlnum c := isWordChar (twoAlphabetLower c)

def autoParts : CatalogDomain := ⟨1, "auto_parts".toList⟩

def enabledAutoParts : List TenantCatalogDomain := [⟨7, 1, true⟩]

def avitoCategory (id : ℕ) (name : String) (parentId : Option ℕ) : TenantCatalogCategory where
  id := id
  tenant := 7
  name := name.toList
  normalizedName := normalizeCategoryName catalogAlphabet name.toList
  parentId := parentId
  rootDomain := some autoParts
  aliases := []
  externalSource := avito
  externalId := name.toList
  isActive := true

def twoBranches : List TenantCatalogCategory :=
  [avitoCategory 1 "Для автомобилей" none, avitoCategory 2 "Для грузовиков и спецтехники" none,
    avitoCategory 3 "Автомобиль на запчасти" (some 1), avitoCategory 4 "Автомобиль на запчасти" (some 2)]

def unknownPart : Product := ⟨7, "QWERTY ZZZ".toList, [], [], [], none⟩

def codePoints (a b : Text) : Bool := decide (a.map Char.toNat ≤ b.map Char.toNat)

theorem codePoints_trans (a b c : Text) (ab : codePoints a b = true) (bc : codePoints b c = true) : codePoints a c = true :=
  decide_eq_true ((of_decide_eq_true ab).trans (of_decide_eq_true bc))

theorem codePoints_total (a b : Text) : (codePoints a b || codePoints b a) = true := by
  rw [Bool.or_eq_true]
  exact (le_total (a.map Char.toNat) (b.map Char.toNat)).imp decide_eq_true decide_eq_true

def carsFirst : List TenantCatalogCategory :=
  [avitoCategory 3 "Автомобиль на запчасти" (some 1), avitoCategory 4 "Автомобиль на запчасти" (some 2),
    avitoCategory 1 "Для автомобилей" none, avitoCategory 2 "Для грузовиков и спецтехники" none]

def trucksFirst : List TenantCatalogCategory :=
  [avitoCategory 4 "Автомобиль на запчасти" (some 2), avitoCategory 3 "Автомобиль на запчасти" (some 1),
    avitoCategory 1 "Для автомобилей" none, avitoCategory 2 "Для грузовиков и спецтехники" none]

theorem inferred_by_order : ¬ OrderFree catalogAlphabet codePoints (activeCategories enabledAutoParts twoBranches unknownPart.tenant) unknownPart := by
  rintro ⟨same, -⟩
  have equal := same carsFirst trucksFirst ⟨by decide +kernel, by decide +kernel⟩ ⟨by decide +kernel, by decide +kernel⟩
  have cars : (inferProductTenantCategory catalogAlphabet carsFirst unknownPart).1.catalogCategory = some 3 := by decide +kernel
  have trucks : (inferProductTenantCategory catalogAlphabet trucksFirst unknownPart).1.catalogCategory = some 4 := by decide +kernel
  rw [equal, trucks] at cars
  cases cars

def oneBranch : List TenantCatalogCategory := twoBranches.take 3

theorem inference_order_free_one_branch :
    OrderFree catalogAlphabet codePoints (activeCategories enabledAutoParts oneBranch unknownPart.tenant) unknownPart := by
  refine (inference_order_free catalogAlphabet codePoints codePoints_trans codePoints_total enabledAutoParts oneBranch (by decide +kernel)
    unknownPart).mpr (.inr (.inr fun a b a_first b_first => ?_))
  have only : ∀ c ∈ matchable (activeCategories enabledAutoParts oneBranch unknownPart.tenant),
      isAutoPartsFallback catalogAlphabet c = true → c = avitoCategory 3 "Автомобиль на запчасти" (some 1) := by decide +kernel
  exact (only a a_first.1 a_first.2.1).trans (only b b_first.1 b_first.2.1).symm

end Runs

end MapBackend.Products.Inference
