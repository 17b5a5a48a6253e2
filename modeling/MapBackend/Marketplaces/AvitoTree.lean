import MapBackend.Core.PublicUrl
import MapBackend.Library.Dicts
import MapBackend.Library.Json
import MapBackend.Library.StackWalks

/-!
The category tree of Avito: how the live tree is built from the answers of the provider within its
limits, and how a stored tree is walked.
-/

namespace MapBackend.Marketplaces.AvitoTree
open MapBackend.Core MapBackend.Library MapBackend.Library.Program

/-! ## Settings -/

def absoluteMaxDepth : ℕ := 32
def absoluteMaxNodes : ℕ := 20000
def absoluteMaxLeaves : ℕ := 10000
def absoluteMaxTotalCalls : ℕ := 10000

def configuredLimit (value : ℤ) (absoluteMaximum : ℕ) : ℕ := min absoluteMaximum (max 1 value).toNat

structure Settings where
  maxDepth : ℤ := 12
  maxNodes : ℤ := 10000
  maxLeaves : ℤ := 2000
  maxTotalCalls : ℤ := 3000

structure Limits where
  maxDepth : ℕ
  maxNodes : ℕ
  maxLeaves : ℕ

def Settings.limits (settings : Settings) : Limits where
  maxDepth := configuredLimit settings.maxDepth absoluteMaxDepth
  maxNodes := configuredLimit settings.maxNodes absoluteMaxNodes
  maxLeaves := configuredLimit settings.maxLeaves absoluteMaxLeaves

structure CallBudget where
  maximum : ℤ
  used : ℕ

def Settings.callBudget (settings : Settings) : CallBudget where
  maximum := configuredLimit settings.maxTotalCalls absoluteMaxTotalCalls
  used := 0

/-! ## Failures -/

inductive Failure where
  | treeSync (message : String)
  | limitExceeded (message : String)
  /-- `requests.HTTPError`, with the status of its response. -/
  | http (status : Option ℕ) (message : String)
  /-- Any other `requests.RequestException`. -/
  | request (message : String)
  | other (message : String)
  deriving DecidableEq

def Failure.message : Failure → String
  | .treeSync message => message
  | .limitExceeded message => message
  | .http _ message => message
  | .request message => message
  | .other message => message

def Limits.depthExceeded (limits : Limits) : Failure :=
  .limitExceeded s!"Превышена глубина дерева Avito: {limits.maxDepth}."

def Limits.nodesExceeded (limits : Limits) : Failure :=
  .limitExceeded s!"Превышено число узлов дерева Avito: {limits.maxNodes}."

def Limits.leavesExceeded (limits : Limits) : Failure :=
  .limitExceeded s!"Превышено число листьев дерева Avito: {limits.maxLeaves}."

/-! ## JSON values -/

def nameKey : Text := "name".toList
def slugKey : Text := "slug".toList
def childrenKey : Text := "children".toList
def nestedKey : Text := "nested".toList
def fieldsKey : Text := "fields".toList
def tagKey : Text := "tag".toList
def contentKey : Text := "content".toList
def valuesKey : Text := "values".toList
def valueKey : Text := "value".toList
def valuesLinkKey : Text := "values_link_json".toList

/-- `dict.get`: a key that is not there has the value `None`. -/
def field (key : Text) (value : Json) : Json := (value.get key).getD .null

def truthy : Json → Bool
  | .null => false
  | .bool b => b
  | .int n => n != 0
  | .float value _ => value != 0
  | .nonFinite => true
  | .text s => !s.isEmpty
  | .list items => !items.isEmpty
  | .object entries => !entries.isEmpty

/-- `str`. The text of a list, of an object and of a number that is not finite comes from `shown`. -/
def str (shown : Json → Text) : Json → Text
  | .null => "None".toList
  | .bool true => "True".toList
  | .bool false => "False".toList
  | .int n => (toString n).toList
  | .float _ text => text
  | .text s => s
  | other => shown other

def strOrEmpty (shown : Json → Text) (value : Json) : Text := if truthy value = true then str shown value else []

/-! ## The tree of the provider -/

def allObjects (message : String) (items : List Json) : Except Failure (List Json) :=
  if items.all Json.isObject = true then .ok items else .error (.treeSync message)

def malformedNested : Failure := .treeSync "Avito вернул некорректное поле nested."

def malformedChild : String := "Avito вернул некорректный дочерний узел."

def flattened : List (Text × Json) → Except Failure (List Json)
  | [] => .ok []
  | (_, .object entries) :: rest => do return .object entries :: (← flattened rest)
  | (_, .list items) :: rest => do return items ++ (← flattened rest)
  | _ :: _ => .error malformedNested

def children (node : Json) : Except Failure (List Json) :=
  match field nestedKey node with
  | .null => .ok []
  | .object entries => flattened entries >>= allObjects malformedChild
  | .list items => allObjects malformedChild items
  | _ => .error malformedNested

def named (name : Text) (node : Json) : Bool :=
  match field nameKey node with
  | .text s => s == name
  | _ => false

def findFrom (node : Option Json) (current : List Json) : List Text → Except Failure (Option Json)
  | [] => .ok node
  | name :: path => do
    let nodes ← allObjects "Avito вернул некорректный узел дерева." current
    match nodes.find? (named name) with
    | none => .ok none
    | some next => do findFrom (some next) (← children next) path

def findPath (nodes : Json) (path : List Text) : Except Failure (Option Json) :=
  match nodes with
  | .list items => findFrom none items path
  | _ => .error (.treeSync "Avito вернул дерево не в виде списка.")

def autoPartsPath : List Text := ["Транспорт".toList, "Запчасти и аксессуары".toList]

/-! ## Stored trees -/

structure Visit where
  node : Json
  path : List Text
  depth : ℕ

structure Pending where
  node : Json
  parent : List Text
  depth : ℕ

def nodeName (node : Json) : Except Failure Text :=
  match field nameKey node with
  | .null => .ok []
  | .text name => .ok name
  | _ => .error (.treeSync "Имя узла дерева Avito должно быть строкой.")

def storedChildren (message : String) (node : Json) : Except Failure (List Json) :=
  match field childrenKey node with
  | .null => .ok []
  | .list items => .ok items
  | _ => .error (.treeSync message)

/-- The checks of a node in the order of the loop; `seen` counts the nodes before it. -/
def checkStored (limits : Limits) (pending : Pending) (seen : ℕ) : Except Failure (Text × List Json) :=
  if pending.node.isObject = false then .error (.limitExceeded "Дерево Avito содержит некорректный узел.")
  else if limits.maxDepth < pending.depth then .error limits.depthExceeded
  else if limits.maxNodes < seen + 1 then .error limits.nodesExceeded
  else do
    let name ← nodeName pending.node
    return (name, ← storedChildren "Поле children дерева Avito должно быть списком." pending.node)

/-- One turn of the loop of `_walk_stored_tree`. Its state is what it has yielded. -/
def visitStored (limits : Limits) (pending : Pending) : EStateM Failure (List Visit) (List Pending) := fun visits =>
  match checkStored limits pending visits.length with
  | .error failure => .error failure visits
  | .ok (name, below) =>
    let path := pending.parent ++ [name]
    .ok (below.map fun child => ⟨child, path, pending.depth + 1⟩) (visits ++ [⟨pending.node, path, pending.depth⟩])

/-- `list(_walk_stored_tree(nodes))`. No walk yields more nodes than the limit. -/
def walkStoredTree (limits : Limits) (nodes : Json) : Except Failure (List Visit) :=
  match nodes with
  | .list items =>
    match StackWalk.walk (visitStored limits) limits.nodesExceeded limits.maxNodes (items.map fun node => ⟨node, [], 1⟩) [] with
    | .ok _ visits => .ok visits
    | .error failure _ => .error failure
  | _ => .error (.limitExceeded "Дерево Avito должно быть списком.")

/-- `node.get('children') or []` of a node that was walked. -/
def keptChildren (node : Json) : List Json :=
  match field childrenKey node with
  | .list items => items
  | _ => []

def recordSlug (shown : Json → Text) (result : List (Text × List Json)) (visit : Visit) : List (Text × List Json) :=
  let slug := field slugKey visit.node
  if truthy slug = true then Dictionary.set (str shown slug) (keptChildren visit.node) result else result

def previousChildrenBySlug (shown : Json → Text) (limits : Limits) (nodes : Json) :
    Except Failure (List (Text × List Json)) := do
  return (← walkStoredTree limits nodes).foldl (recordSlug shown) []

/-! ## The provider -/

inductive Call where
  | categoryTree
  | nodeFields (slug : Text)
  | linkValues (url : Text)
  deriving DecidableEq

structure Response where
  statusCode : ℕ
  json : Option Json
  /-- The text of the error that `raise_for_status` raises. -/
  reason : String

def Response.raiseForStatus (response : Response) : Except Failure Unit :=
  if 400 ≤ response.statusCode ∧ response.statusCode < 600 then .error (.http (some response.statusCode) response.reason)
  else .ok ()

/-- The answers of the provider. An answer may depend on the number of the call. -/
structure Provider where
  getCategoryTree : ℕ → Except Failure Json
  getNodeFields : ℕ → Text → Except Failure Json
  getToken : ℕ → Except Failure Text
  /-- `_request_avito_values`, with its check of the URL. -/
  requestValues : ℕ → Text → Text → Except Failure Response

/-! ## The builder -/

structure Setup where
  provider : Provider
  limits : Limits
  /-- The maximum of the call budget. -/
  maximum : ℤ
  previousChildren : List (Text × List Json)
  shown : Json → Text

structure Builder where
  used : ℕ
  calls : List Call
  nodesSeen : ℕ
  leavesSeen : ℕ
  warnings : List String

abbrev Build (α : Type) := EStateM Failure Builder α

def newBuilder (shown : Json → Text) (settings : Settings) (provider : Provider) (previousTree : Json) (budget : CallBudget) :
    Except Failure (Setup × Builder) := do
  let previousChildren ← previousChildrenBySlug shown settings.limits previousTree
  return ({ provider, limits := settings.limits, maximum := budget.maximum, previousChildren, shown },
    { used := budget.used, calls := [], nodesSeen := 0, leavesSeen := 0, warnings := [] })

section Builder

variable (setup : Setup)

def consume : Build Unit := fun builder =>
  if setup.maximum ≤ builder.used then
    .error (.limitExceeded s!"Превышен лимит API-вызовов дерева Avito: {setup.maximum}.") builder
  else .ok () { builder with used := builder.used + 1 }

def request {α : Type} (call : Call) (answer : ℕ → Except Failure α) : Build α := do
  consume setup
  fun builder => lift (answer builder.used) { builder with calls := builder.calls ++ [call] }

/-- `_reserve_nodes`. The count of a list is never negative. -/
def reserveNodes (count depth : ℕ) : Build Unit := fun builder =>
  if count ≠ 0 ∧ setup.limits.maxDepth < depth then .error setup.limits.depthExceeded builder
  else if setup.limits.maxNodes < builder.nodesSeen + count then .error setup.limits.nodesExceeded builder
  else .ok () { builder with nodesSeen := builder.nodesSeen + count }

def reserveExisting (pending : Json × ℕ) : Build (List (Json × ℕ)) := do
  lift (raiseIf (pending.1.isObject = false) (.treeSync "Резервная ветка содержит некорректный узел."))
  reserveNodes setup 1 pending.2
  let below ← lift (storedChildren "Резервная ветка содержит некорректное поле children." pending.1)
  return below.map fun child => (child, pending.2 + 1)

/-- `_reserve_existing_subtree`. No more nodes are reserved than are left. -/
def reserveExistingSubtree (nodes : List Json) (depth : ℕ) : Build Unit := fun builder =>
  StackWalk.walk (reserveExisting setup) setup.limits.nodesExceeded (setup.limits.maxNodes - builder.nodesSeen)
    (nodes.map fun node => (node, depth)) builder

/-! ### Part types -/

def valueTexts : List Json → Except Failure (List Text)
  | [] => .ok []
  | value :: rest =>
    if value.isObject = false then .error (.treeSync "Avito вернул некорректный элемент values.")
    else match field valueKey value with
      | .null => valueTexts rest
      | .text [] => valueTexts rest
      | .text raw => do return raw :: (← valueTexts rest)
      | _ => .error (.treeSync "Значение категории Avito должно быть строкой.")

def listOrNone (message : String) : Json → Except Failure (List Json)
  | .null => .ok []
  | .list items => .ok items
  | _ => .error (.treeSync message)

def Failure.retried : Failure → Bool
  | .http status _ => status == some 429
  | .request _ => true
  | _ => false

def requestFields (slug : Text) : ℕ → Build Json
  | 0 => request setup (.nodeFields slug) fun n => setup.provider.getNodeFields n slug
  | retries + 1 => do
    match ← attempt (request setup (.nodeFields slug) fun n => setup.provider.getNodeFields n slug) with
    | .ok data => return data
    | .error failure => if failure.retried = true then requestFields slug retries else throw failure

def linkValues (maxValues : ℤ) (response : Response) : Except Failure (List Text) := do
  response.raiseForStatus
  let payload ← orRaise (.treeSync "Avito вернул некорректный JSON значений.") response.json
  raiseIf (payload.isObject = false) (.treeSync "Avito вернул некорректную структуру значений.")
  let rawValues ← listOrNone "Avito вернул values не в виде списка." (field valuesKey payload)
  raiseIf (maxValues < rawValues.length) (.limitExceeded s!"Ответ values превышает остаток бюджета узлов: {maxValues}.")
  valueTexts rawValues

def requestLink (url token : Text) (maxValues : ℤ) : ℕ → Build (List Text)
  | 0 => do
    let response ← request setup (.linkValues url) fun n => setup.provider.requestValues n url token
    lift (linkValues maxValues response)
  | retries + 1 => do
    let response ← request setup (.linkValues url) fun n => setup.provider.requestValues n url token
    if response.statusCode = 429 then requestLink url token maxValues retries else lift (linkValues maxValues response)

def fetchLinkValues (url : Text) (maxValues : ℤ) : Build (List Text) := do
  lift (raiseIf (maxValues < 1) setup.limits.nodesExceeded)
  let token ← fun builder => lift (setup.provider.getToken builder.used) builder
  requestLink setup url token maxValues 5

def valuesLink (content : Json) : Except Failure Text :=
  match field valuesLinkKey content with
  | .null => .ok []
  | .text link => .ok link
  | _ => .error (.treeSync "Ссылка values_link_json должна быть строкой.")

def inlineValues (content : Json) : Except Failure (List Text × Text) := do
  raiseIf (content.isObject = false) (.treeSync "Avito вернул некорректный элемент content.")
  let inline ← listOrNone "Avito вернул values не в виде списка." (field valuesKey content) >>= valueTexts
  return (inline, ← valuesLink content)

def contentValues (found : ℕ) (content : Json) : Build (List Text) := do
  let (inline, link) ← lift (inlineValues content)
  if inline = [] ∧ link ≠ [] then
    let builder ← get
    fetchLinkValues setup link (setup.limits.maxNodes - builder.nodesSeen - found)
  else return inline

def addValue (leafName : Text) (values : List Text) (value : Text) : Build (List Text) := fun builder =>
  if value = leafName ∨ values.contains value = true then .ok values builder
  else if setup.limits.maxNodes ≤ builder.nodesSeen + values.length then .error setup.limits.nodesExceeded builder
  else .ok (values ++ [value]) builder

def addContent (leafName : Text) (values : List Text) (content : Json) : Build (List Text) := do
  (← contentValues setup values.length content).foldlM (addValue setup leafName) values

def partTypeSuffix : Text := "SparePartType".toList

def fieldContents (data : Json) : Except Failure (List Json) :=
  if data.isObject = false then .error (.treeSync "Avito вернул некорректный элемент fields.")
  else if partTypeSuffix.isSuffixOf (strOrEmpty setup.shown (field tagKey data)) = true then
    listOrNone "Avito вернул content не в виде списка." (field contentKey data)
  else .ok []

def addField (leafName : Text) (values : List Text) (data : Json) : Build (List Text) := do
  (← lift (fieldContents setup data)).foldlM (addContent setup leafName) values

def nodeFields (data : Json) : Except Failure (List Json) :=
  if data.isObject = false then .error (.treeSync "Avito вернул поля узла не в виде объекта.")
  else listOrNone "Avito вернул поле fields не в виде списка." (field fieldsKey data)

def leafPartTypes (slug leafName : Text) : Build (List Text) := do
  let data ← requestFields setup slug 5
  (← lift (nodeFields data)).foldlM (addField setup leafName) []

/-! ### Nodes -/

def treeNode (node : Json) (below : List Json) : Json :=
  .object [(nameKey, field nameKey node), (slugKey, field slugKey node), (childrenKey, .list below)]

def partType (value : Text) : Json :=
  .object [(nameKey, .text value), (slugKey, .null), (childrenKey, .list [])]

def countLeaf : Build Unit := fun builder =>
  let counted := { builder with leavesSeen := builder.leavesSeen + 1 }
  if setup.limits.maxLeaves < counted.leavesSeen then .error setup.limits.leavesExceeded counted else .ok () counted

def Setup.previous (slug : Text) : List Json := (Dictionary.get slug setup.previousChildren).getD []

def keepPrevious (slug : Text) (depth : ℕ) (failure : Failure) : Build (List Json) := do
  let fallback := setup.previous slug
  reserveExistingSubtree setup fallback (depth + 1)
  modify fun builder => { builder with warnings := builder.warnings ++
    [String.ofList slug ++ ": не удалось обновить подвиды, сохранена предыдущая версия (" ++ failure.message ++ ")"] }
  return fallback

def takeValues (depth : ℕ) (values : List Text) : Build (List Json) := do
  reserveNodes setup values.length (depth + 1)
  return values.map partType

def leafSlug (node : Json) : Text := strOrEmpty setup.shown (field slugKey node)

def leafName (node : Json) : Text := strOrEmpty setup.shown (field nameKey node)

def readLeaf (depth : ℕ) (node : Json) : Build (List Json) := do
  match ← attempt (leafPartTypes setup (leafSlug setup node) (leafName setup node)) with
  | .ok values => takeValues setup depth values
  | .error (.limitExceeded message) => throw (.limitExceeded message)
  | .error failure => keepPrevious setup (leafSlug setup node) depth failure

def leafChildren (depth : ℕ) (node : Json) : Build (List Json) := do
  countLeaf setup
  if leafSlug setup node = [] then return [] else readLeaf setup depth node

/-- `_build_node`, with room for so many levels: without room, the depth is over its limit. -/
def buildNode : ℕ → ℕ → Json → Build Json
  | 0, depth, _ => do
    reserveNodes setup 1 depth
    throw setup.limits.depthExceeded
  | room + 1, depth, node => do
    reserveNodes setup 1 depth
    let nodes ← lift (children node)
    if nodes.isEmpty = true then return treeNode node (← leafChildren setup depth node)
    else return treeNode node (← nodes.mapM (buildNode room (depth + 1)))

structure TreeBuildResult where
  tree : List Json
  warnings : List String

def autoPartsNodes (rawTree : Json) : Except Failure (List Json) := do
  match ← findPath rawTree autoPartsPath with
  | none => .error (.treeSync "Avito API не вернул ветку «Транспорт → Запчасти и аксессуары».")
  | some root => children root

def buildAutoParts : Build TreeBuildResult := do
  let rawTree ← request setup .categoryTree setup.provider.getCategoryTree
  let nodes ← lift (autoPartsNodes rawTree)
  let tree ← nodes.mapM (buildNode setup setup.limits.maxDepth 1)
  return { tree, warnings := (← get).warnings }

end Builder

end MapBackend.Marketplaces.AvitoTree
