import MapBackend.Marketplaces.AvitoFeedContext
import MapBackend.Marketplaces.Models

/-!
The preflight of a publication: blocking errors and warnings by field of the drawer, from the values that the feed resolves.
-/

namespace MapBackend.Marketplaces.Avito
open MapBackend.Core MapBackend.Core.Url MapBackend.Library

/-! ## Names of fields -/

def avitoSubtypeLabels : List (String × String) :=
  [("TransmissionSparePartType", "Тип детали трансмиссии"), ("EngineSparePartType", "Тип детали двигателя"),
    ("BodySparePartType", "Тип детали кузова"), ("TechnicSparePartType", "Тип детали")]

def avitoFieldLabels : List (String × String) :=
  [("ACEA", "класс моторного масла по ACEA"), ("API", "класс моторного масла по API"),
    ("ASTM", "стандарт охлаждающей жидкости ASTM"), ("ATF", "тип трансмиссионной жидкости ATF"),
    ("AccessorySubType", "подтип аксессуара"), ("AccessoryType", "тип аксессуара"), ("Age", "возрастная группа"),
    ("AmplifierType", "тип усилителя"), ("AndroidOS", "версия Android"), ("AudioType", "тип аудиоустройства"),
    ("Axles", "количество осей"), ("BackRimDiameter", "диаметр заднего диска"),
    ("BackTireAspectRatio", "профиль задней шины"), ("BackTireSectionWidth", "ширина задней шины"),
    ("BodySparePartType", "тип кузовной детали"), ("BoreDiameter", "диаметр отверстия"), ("BrushLength", "длина щётки"),
    ("BrushType", "тип щётки стеклоочистителя"), ("CPU", "процессор"), ("CamsNumber", "количество камер"),
    ("Capacity", "ёмкость аккумулятора"), ("ChannelsNumber", "количество каналов"), ("ClothingType", "тип одежды"),
    ("Color", "цвет"), ("CoolingType", "тип охлаждения"), ("CoverType", "тип чехла"), ("DCL", "пусковой ток аккумулятора"),
    ("DOT", "класс тормозной жидкости DOT"), ("Design", "конструкция"), ("DeviceType", "тип устройства"),
    ("DumpTruckFunction", "назначение самосвала"), ("EngineSparePartType", "тип детали двигателя"),
    ("EquipmentBrand", "марка оборудования"), ("EquipmentType", "тип оборудования"), ("FuelType", "тип топлива"),
    ("Gender", "назначение по полу"), ("GoodsSubType", "подтип товара"), ("GrossVehicleWeight", "разрешённая полная масса"),
    ("HeatingEquipmentType", "тип отопительного оборудования"), ("HelmetType", "тип шлема"),
    ("HydraulicDistributorType", "тип гидрораспределителя"), ("HydraulicDesignType", "тип гидравлической конструкции"),
    ("HydraulicStroke", "ход гидроцилиндра"), ("Impedance", "сопротивление"), ("InstallationLocation", "место установки"),
    ("InstallationType", "способ установки"), ("Make", "марка техники"), ("MatType", "тип коврика"),
    ("Material", "материал"), ("Model", "модель"), ("MountingType", "тип крепления"),
    ("NumberOfSections", "количество секций"), ("OEM", "номер детали OEM"), ("OEMOil", "допуск производителя автомобиля"),
    ("OtherDefects", "другие повреждения"), ("PartsHindcarriageType", "тип детали ходовой части"),
    ("Polarity", "полярность аккумулятора"), ("ProductType", "тип товара"), ("PowerType", "тип питания"),
    ("ProductSubType", "подтип товара"), ("ProtectionType", "тип защиты"), ("Quantity", "количество в комплекте"),
    ("RAM", "объём оперативной памяти"), ("RMS", "номинальная мощность"), ("RMSfour", "мощность при сопротивлении 4 Ом"),
    ("RMStwo", "мощность при сопротивлении 2 Ом"), ("ROM", "объём встроенной памяти"),
    ("ResidualTread", "остаточная глубина протектора"), ("Resolution", "разрешение экрана или камеры"),
    ("RimBolts", "количество крепёжных отверстий диска"), ("RimBoltsDiameter", "диаметр расположения крепёжных отверстий"),
    ("RimDIA", "диаметр центрального отверстия диска"), ("RimDiameter", "диаметр диска"), ("RimOffset", "вылет диска"),
    ("RimType", "тип диска"), ("RimWidth", "ширина диска"), ("RodDiameter", "диаметр штока"),
    ("SAE", "вязкость масла по SAE"), ("SecondBrushLength", "длина второй щётки"), ("SparePartType", "вид запчасти"),
    ("Set", "состав комплекта"), ("ShoeType", "тип обуви"), ("Size", "размер"), ("Technic", "вид техники"),
    ("TechnicAddOnType", "тип навесного оборудования"), ("TechnicHeight", "высота детали"),
    ("TechnicLength", "длина детали"), ("TechnicSparePartType", "тип детали спецтехники"), ("TechnicWidth", "ширина детали"),
    ("TireAspectRatio", "профиль шины"), ("TireRuptureQuantity", "количество проколов протектора"),
    ("TireSectionWidth", "ширина шины"), ("TireSideRepairQuantity", "количество ремонтов боковины"),
    ("TireType", "тип шины"), ("TransmissionSparePartType", "тип детали трансмиссии"), ("TransportType", "тип транспорта"),
    ("VehicleType", "тип транспортного средства"), ("VoiceCoil", "количество звуковых катушек"),
    ("Voltage", "напряжение аккумулятора"), ("Volume", "объём"), ("WheelAxle", "ось установки колеса")]

def avitoFieldExamples : List (String × String) :=
  [("Voltage", "например, 12 В"), ("Capacity", "например, 60 А·ч"), ("DCL", "например, 540 А"),
    ("Polarity", "прямая или обратная"), ("TechnicLength", "в миллиметрах"), ("TechnicWidth", "в миллиметрах"),
    ("TechnicHeight", "в миллиметрах")]

def labelOf (table : List (String × String)) (tag : Text) : Option Text :=
  (table.find? fun entry => entry.1.toList == tag).map fun entry => entry.2.toList

def avitoFieldLabel (tag : Text) : Text := (labelOf avitoFieldLabels tag).getD "дополнительная характеристика товара".toList

def joinTexts (separator : Text) (texts : List Text) : Text := separator.intercalate texts

def formatAvitoFieldRequirements (tags : List Text) : Text :=
  joinTexts "; ".toList (tags.map fun tag =>
    match labelOf avitoFieldExamples tag with
    | some shown => avitoFieldLabel tag ++ " (".toList ++ shown ++ ")".toList
    | none => avitoFieldLabel tag)

/-! ## What the preflight reads -/

/-- The settings of the feed, the status of the schema of each leaf and the close names of the brand catalogue. -/
structure PublicationSettings extends FeedSettings where
  schemaHttp : Text → Option ℕ
  brandSuggestions : Text → List Text

structure AccountState where
  isActive : Bool
  deletedAt : Option Instant

def resolveLeaf (taxonomy : Taxonomy) (steps : ℕ) (category : CatalogCategory)
    (parentOf : CatalogCategory → Option CatalogCategory) : Option Leaf :=
  let nodes := ancestry parentOf steps category
  (taxonomy.avitoSpecFor category.name (column (parentOf category) CatalogCategory.name)).orElse fun _ =>
    (nodes.findSome? fun node => taxonomy.leafSpecBySlug node.externalId).orElse fun _ =>
      nodes.findSome? fun node => taxonomy.leafSpecByName node.name

def FeedDatabase.leafOf (db : FeedDatabase) (taxonomy : Taxonomy) (listing : Listing) : Option Leaf :=
  (db.categoryOf listing.product).bind fun category => resolveLeaf taxonomy db.categories.length category db.parentOf

def feedAlwaysOrProviderInferredTags : List Text :=
  ["Id".toList, "Title".toList, "Description".toList, "Price".toList, "Category".toList, "GoodsType".toList, "AdType".toList,
    "Condition".toList, "Address".toList, "CompatibleCars".toList]

section Listing

variable (settings : PublicationSettings) (db : FeedDatabase) (listing : Listing)

def schemaVerified : Bool :=
  ((db.leafOf settings.taxonomy listing).bind fun leaf => settings.schemaHttp leaf.slug) == some 200

/-- `_required_avito_fields`, for the spec of the listing. -/
def requiredFields : List Text :=
  let relations := db.relations settings.toFeedSettings listing
  requiredAvitoFields relations.spec
    (dependencyFieldValues settings.taxonomy listing relations.mapping relations.category relations.spec)

def providedTags : List Text :=
  let relations := db.relations settings.toFeedSettings listing
  let optional (tag value : Text) : List Text := if value = [] then [] else [tag]
  feedAlwaysOrProviderInferredTags ++
    optional "ProductType".toList (getProductType relations.mapping relations.spec) ++
    optional "SparePartType".toList (getSparePartType relations.mapping relations.spec) ++
    optional "Brand".toList relations.brand ++
    optional "OEM".toList (getOem listing.product) ++
    ((getPartSubtype settings.taxonomy relations.spec relations.category).map fun pair => optional pair.1.name pair.2).getD []

def missingRequiredAvitoFields : List Text :=
  (requiredFields settings db listing).filter fun tag => !(providedTags settings db listing).contains tag

def hasResolvedCategory : Bool := (db.leafOf settings.taxonomy listing).isSome || (db.getCategoryMapping listing).isSome

/-- `get_feed_image_urls` falls back on the photo of the category. -/
def usesCategoryFallback (images : List ProductImage) (category : Option CatalogCategory) : Bool :=
  ((images.map fun image => imageUrl settings.toFeedSettings (deliveryS3Key image) image.urlSource).filter published).isEmpty &&
    !(getFeedImageUrls settings.toFeedSettings images category).isEmpty

end Listing

/-! ## Messages -/

def unknownBrandWarning (brand : Text) (suggestions : List Text) : Text :=
  let variants := joinTexts ", ".toList (suggestions.map fun suggestion => "«".toList ++ suggestion ++ "»".toList)
  let hint := if suggestions.isEmpty then [] else
    " В справочнике есть похожее название: ".toList ++ variants ++
      ". Выбирайте его только в том случае, если это действительно тот же производитель.".toList
  "Avito не распознал производителя «".toList ++ brand ++ "». В выбранной категории Brand ".toList ++
    "обязателен, поэтому объявление будет отклонено. Проверьте написание ".toList ++ "в карточке товара.".toList ++ hint ++
    " Если название указано верно, обратитесь в ".toList ++ "поддержку Avito с просьбой добавить производителя в справочник.".toList

def optionalUnknownBrandWarning (brand : Text) (suggestions : List Text) : Text :=
  let variants := joinTexts ", ".toList (suggestions.map fun suggestion => "«".toList ++ suggestion ++ "»".toList)
  let hint := if suggestions.isEmpty then [] else " Похожие значения Avito: ".toList ++ variants ++ ".".toList
  "Avito не распознал необязательный бренд «".toList ++ brand ++ "». MAP не добавит его ".toList ++
    "в XML, чтобы необязательное значение не вызвало отклонение.".toList ++ hint

def oemWarning (product : Product) : Text :=
  if (oemValues product).isEmpty then []
  else if getOem product ≠ [] then []
  else "Ни один OEM-номер нельзя отправить в Avito: допустимо одно значение до ".toList ++
    "50 символов: латинские буквы, цифры и дефис.".toList

structure Finding where
  blocking : Bool
  field : Text
  message : Text

def check (failed : Prop) [Decidable failed] (blocking : Bool) (field message : Text) : List Finding :=
  if failed then [⟨blocking, field, message⟩] else []

abbrev Messages := List (Text × List Text)

/-- `target.setdefault(field, []).append(message)`. -/
def addMessage (messages : Messages) (finding : Finding) : Messages :=
  if messages.any fun entry => entry.1 == finding.field then
    messages.map fun entry => if entry.1 = finding.field then (entry.1, entry.2 ++ [finding.message]) else entry
  else messages ++ [(finding.field, [finding.message])]

/-! ## The preflight -/

section Preflight

variable (settings : PublicationSettings) (db : FeedDatabase) (account : AccountState) (listing : Listing)

/-- The checks of the texts, the price, the account, the placement and the contacts. -/
def listingFindings : List Finding :=
  let relations := db.relations settings.toFeedSettings listing
  check (strip (orText listing.title listing.product.name) = []) true "title".toList "Укажите заголовок объявления.".toList ++
  check (strip (orText listing.descriptionAi listing.product.description1c) = []) true "description_ai".toList
    "Добавьте описание объявления.".toList ++
  check (¬ 0 < listing.priceOnListing.units) true "price_on_listing".toList "Цена объявления должна быть больше нуля.".toList ++
  check (account.isActive = false ∨ account.deletedAt.isSome = true) true "account_id".toList
    "Выберите активный аккаунт Avito.".toList ++
  check (sellerAddressId listing relations.placement relations.mapping = [] ∧
      addressText listing relations.placement relations.mapping = []) true "placement_address".toList
    "Выберите адрес размещения или укажите адрес в настройках аккаунта Avito.".toList ++
  check (managerName listing relations.placement relations.mapping = []) true "manager_name_override".toList
    "Укажите контактное лицо в листинге, адресе размещения или настройках аккаунта Avito.".toList ++
  check (contactPhone listing relations.placement relations.mapping = []) true "contact_phone_override".toList
    "Укажите телефон в листинге, адресе размещения или настройках аккаунта Avito.".toList ++
  check (hasResolvedCategory settings db listing = false) false "catalog_category".toList
    ("Не определена категория Avito с точным листом. MAP отправит общий ".toList ++
      "тип запчастей, но не сможет заранее проверить все характеристики.".toList)

def brandFindings : List Finding :=
  let brand := strip listing.product.brand
  let required := (requiredFields settings db listing).contains "Brand".toList
  let lookup := lookupBrand settings.toFeedSettings brand
  let unknown := brand ≠ [] ∧ lookup.known = false
  check (required = true ∧ brand = []) (schemaVerified settings db listing) "product_brand".toList
    "Для выбранной категории Avito производитель обязателен. Укажите бренд из справочника.".toList ++
  check (unknown ∧ required = true) (schemaVerified settings db listing) "product_brand".toList
    (unknownBrandWarning brand (settings.brandSuggestions brand)) ++
  check (unknown ∧ required = false) false "product_brand".toList
    (optionalUnknownBrandWarning brand (settings.brandSuggestions brand))

def oemFindings : List Finding :=
  let required := (requiredFields settings db listing).contains "OEM".toList
  let oem := getOem listing.product
  check (required = true ∧ oem = []) (schemaVerified settings db listing) "product_oem".toList
    ("Для нового товара в выбранной категории Avito требуется номер детали OEM. ".toList ++
      "Укажите одно значение до 50 символов — латинские буквы, цифры или дефис.".toList) ++
  check (oemWarning listing.product ≠ []) (schemaVerified settings db listing && required && oem.isEmpty) "product_oem".toList
    (oemWarning listing.product)

def requiredFindings : List Finding :=
  let verified := schemaVerified settings db listing
  let missing := missingRequiredAvitoFields settings db listing
  let blocking := missing.filter fun tag => (labelOf avitoSubtypeLabels tag).isSome
  let labels := joinTexts ", ".toList (blocking.filterMap (labelOf avitoSubtypeLabels))
  let other := missing.filter fun tag =>
    (labelOf avitoSubtypeLabels tag).isNone && tag != "Brand".toList && tag != "OEM".toList
  let requirements := formatAvitoFieldRequirements other
  check (blocking ≠ []) verified "catalog_category".toList
    (if verified then "Выберите конечную категорию Avito, чтобы заполнить: ".toList ++ labels ++ ".".toList
      else "Avito не отдал актуальную схему категории. Проверьте: ".toList ++ labels ++ ".".toList) ++
  check (other ≠ []) verified "catalog_category".toList
    ((if verified then "Для выбранной категории Avito не заполнены обязательные характеристики: ".toList ++ requirements ++ ".".toList
      else "Avito не отдал актуальную схему категории. Проверьте: ".toList ++ requirements ++ ".".toList) ++
      " Выберите точную категорию или добавьте эти характеристики перед публикацией.".toList)

def imageFindings : List Finding :=
  let images := db.publishableImages listing.product.id
  let category := db.categoryOf listing.product
  let urls := getFeedImageUrls settings.toFeedSettings images category
  check (urls = []) false "images".toList
    "Добавьте фотографию товара. Поле необязательное, поэтому публикация доступна.".toList ++
  check (urls ≠ [] ∧ usesCategoryFallback settings images category = true) false "images".toList
    "Сейчас используется общая фотография категории. Добавьте фото конкретного товара.".toList

def publicationFindings : List Finding :=
  listingFindings settings db account listing ++ brandFindings settings db listing ++ oemFindings settings db listing ++
    requiredFindings settings db listing ++ imageFindings settings db listing

/-- `avito_publication_preflight`: the errors and the warnings. -/
def avitoPublicationPreflight : Messages × Messages :=
  let findings := publicationFindings settings db account listing
  ((findings.filter fun finding => finding.blocking).foldl addMessage [],
    (findings.filter fun finding => !finding.blocking).foldl addMessage [])

end Preflight

end MapBackend.Marketplaces.Avito
