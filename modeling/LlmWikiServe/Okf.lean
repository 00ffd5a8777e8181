import LlmWikiServe.Parser

/-!
# Open Knowledge Format pages

The stricter reader of an OKF v0.2 bundle: frontmatter has to be a closed YAML mapping,
concepts need a type, and provenance fields are checked and normalized.
-/

namespace LlmWikiServe

def okfV02Version : Text := "0.2"

def okfRootVersionKeys : List Text := ["okf_version", "okfVersion"]

def okfSourceFields : List Text :=
  ["id", "resource", "title", "author", "usage_count", "last_modified", "usage_window"]

def okfMetadataFields : List Text :=
  ["type", "title", "description", "resource", "tags", "generated", "verified", "status",
    "stale_after", "sources", "usage_window", "runtime", "parameters", "computation", "executor",
    "attester"]

def okfError {α : Type} (message : Text) : Except LoadError α := .error (.okf message)

section Fields

variable [Interpreter]

def scalarText : Value → Text
  | .none => []
  | .datetime value => Text.replace "+00:00" "Z" (value.isoformatWith 'T')
  | .date value => value.isoformat
  | value => cleanText value.toText

omit [Interpreter] in
def mappingValue : Value → List (Value × Value)
  | .dict entries => entries
  | _ => []

omit [Interpreter] in
def usageCountValue : Value → Value
  | .int value => .int value
  | .float value => .float value
  | _ => .none

/-- The entries whose key text is not in a list, a later equal key text overwriting. -/
def extraFields (known : List Text) (entries : List (Value × Value)) : Metadata :=
  entries.foldl (fun extra entry =>
    if entry.1.toText ∈ known then extra else Keyed.set extra entry.1.toText entry.2) []

def normalizeOkfActorEvent (fieldName : Text) : Value → Except LoadError (Option OkfActorEvent)
  | .none => .ok none
  | .dict entries =>
      let actor := scalarText (getKey entries "by")
      if actor = [] then okfError (("OKF " : Text) ++ fieldName ++ (".by is required" : Text))
      else .ok (some ⟨actor, scalarText (getKey entries "at")⟩)
  | _ => okfError (("OKF " : Text) ++ fieldName ++ (" must be a mapping" : Text))

def normalizeOkfVerified : Value → Except LoadError (List OkfActorEvent)
  | .none => .ok []
  | .dict entries => do
      let event ← normalizeOkfActorEvent "verified" (.dict entries)
      return event.toList
  | .sequence .list items => do
      let events ← items.mapM (normalizeOkfActorEvent "verified")
      return events.filterMap id
  | _ => okfError "OKF verified must be a mapping or list"

def normalizeOkfSource (sharedUsageWindow : List (Value × Value)) :
    Value → Except LoadError OkfSource
  | .dict entries => do
      let resource := scalarText (getKey entries "resource")
      if resource = [] then okfError "OKF sources entries require resource"
      let own := mappingValue (getKey entries "usage_window")
      let usageWindow ← stringKeys (if own = [] then sharedUsageWindow else own)
      return {
        id := scalarText (getKey entries "id")
        resource := resource
        title := scalarText (getKey entries "title")
        author := scalarText (getKey entries "author")
        usageCount := usageCountValue (getKey entries "usage_count")
        lastModified := scalarText (getKey entries "last_modified")
        usageWindow := usageWindow
        extra := extraFields okfSourceFields entries }
  | _ => okfError "OKF sources entries must be mappings"

def normalizeOkfSources (sharedUsageWindow : List (Value × Value)) :
    Value → Except LoadError (List OkfSource)
  | .none => .ok []
  | .sequence .list items => items.mapM (normalizeOkfSource sharedUsageWindow)
  | _ => okfError "OKF sources must be a list"

omit [Interpreter] in
def isMapping : Value → Bool
  | .dict _ => true
  | _ => false

omit [Interpreter] in
def listOfMappings (fieldName : Text) : Value → Except LoadError (List (List (Value × Value)))
  | .none => .ok []
  | .sequence .list items =>
      if items.all isMapping then .ok (items.map mappingValue)
      else okfError (("OKF " : Text) ++ fieldName ++ (" entries must be mappings" : Text))
  | _ => okfError (("OKF " : Text) ++ fieldName ++ (" must be a list" : Text))

omit [Interpreter] in
def okfTrustTier (verified : List OkfActorEvent) : OkfTrustTier :=
  if verified = [] then .unverified
  else if verified.any fun event => Text.startsWith event.by_ "human:" then .humanReviewed
  else .machineConfirmed

omit [Interpreter] in
def okfSourceRefKey (source : OkfSource) : Text :=
  if source.id = [] then source.resource else source.id

def rootOkfVersion (frontmatter : List (Value × Value)) : Text :=
  ((okfRootVersionKeys.map fun key => scalarText (getKey frontmatter key)).find?
    (· ≠ [])).getD []

/-- The status of a document, stable when it declares none. -/
def okfStatus (declared : Value) : Text :=
  if scalarText declared = [] then "stable" else scalarText declared

omit [Interpreter] in
/-- An attested computation has to name its runtime. -/
def checkOkfRuntime [Unicode] (conceptType runtime : Text) : Except LoadError Unit :=
  if Text.casefold conceptType = ("attested computation" : Text) ∧ runtime = [] then
    okfError "OKF Attested Computation is missing required runtime"
  else .ok ()

def normalizeOkfMetadata [Unicode] (role : OkfDocumentRole) (conceptType : Text)
    (frontmatter : List (Value × Value)) : Except LoadError OkfMetadata := do
  let field := fun key => getKey frontmatter key
  let sharedUsageWindow := mappingValue (field "usage_window")
  let sources ← normalizeOkfSources sharedUsageWindow (field "sources")
  let generated ← normalizeOkfActorEvent "generated" (field "generated")
  let verified ← normalizeOkfVerified (field "verified")
  let runtime := scalarText (field "runtime")
  checkOkfRuntime conceptType runtime
  let parameters ← listOfMappings "parameters" (field "parameters")
  -- The checks of the model itself, which come after those of the format.
  let usageWindow ← stringKeys sharedUsageWindow
  let parameters ← parameters.mapM stringKeys
  let executor ← stringKeys (mappingValue (field "executor"))
  let attester ← stringKeys (mappingValue (field "attester"))
  return {
    version := okfV02Version
    role := role
    conceptType := conceptType
    description := scalarText (field "description")
    resource := scalarText (field "resource")
    generated := generated
    verified := verified
    trustTier := okfTrustTier verified
    status := okfStatus (field "status")
    staleAfter := scalarText (field "stale_after")
    usageWindow := usageWindow
    runtime := runtime
    parameters := parameters
    computation := scalarText (field "computation")
    executor := executor
    attester := attester
    sources := sources
    extra := extraFields (okfMetadataFields ++ okfRootVersionKeys) frontmatter }

end Fields

section Pages

variable [Unicode] [Interpreter] [Documents]

omit [Unicode] [Interpreter] in
def splitOkfFrontmatter (rel raw : Text) : Except LoadError (List (Value × Value) × Text) :=
  if !Text.startsWith raw "---\n" then .ok ([], raw)
  else
    match Text.find? "\n---" (raw.drop 4) with
    | none => okfError (("OKF frontmatter is not closed in " : Text) ++ rel)
    | some stop =>
        let block := (raw.drop 4).take stop
        let body := raw.drop (4 + stop + 4)
        match Documents.safeLoad block with
        | .error .syntax_ => okfError (("OKF frontmatter is invalid in " : Text) ++ rel)
        | .error (.raised message) => .error (.document message)
        | .ok (.dict entries) => .ok (entries, body)
        | .ok value =>
            if value.truthy then
              okfError (("OKF frontmatter must be a mapping in " : Text) ++ rel)
            else .ok ([], body)

/-- The root's index file declares the format, an unreadable one raising its error. -/
def isOkfV02Root (index : Option Node) : Except LoadError Bool :=
  match index with
  | some (.file _ content) => do
      let raw ← content.readText
      match splitOkfFrontmatter "index.md" raw with
      | .ok (frontmatter, _) => return rootOkfVersion frontmatter = okfV02Version
      | .error (.okf _) => return false
      | .error error => .error error
  | _ => .ok false

omit [Interpreter] [Documents] in
def okfDocumentRole (path : RelPath) : OkfDocumentRole :=
  let name := Text.casefold path.name
  if name = ("index.md" : Text) then .index
  else if name = ("log.md" : Text) then .log
  else .concept

omit [Unicode] [Interpreter] [Documents] in
def okfPageRole : OkfDocumentRole → PageRole
  | .index => .index
  | _ => .topic

omit [Unicode] [Documents] in
def okfConceptType (role : OkfDocumentRole) (rel : Text) (frontmatter : List (Value × Value)) :
    Except LoadError Text :=
  if role = .concept then
    let conceptType := scalarText (getKey frontmatter "type")
    if conceptType = [] then
      okfError (("OKF concept " : Text) ++ rel ++ (" is missing required type" : Text))
    else .ok conceptType
  else .ok []

omit [Unicode] [Documents] in
/-- The root's index file may declare no other version. -/
def checkOkfVersion (rel : Text) (frontmatter : List (Value × Value)) : Except LoadError Unit :=
  if rel = ("index.md" : Text) ∧ rootOkfVersion frontmatter ≠ [] ∧
      rootOkfVersion frontmatter ≠ okfV02Version then
    okfError "root index.md declares an unsupported OKF version"
  else .ok ()

omit [Documents] in
def okfPage (role : OkfDocumentRole) (path : RelPath) (frontmatter : Metadata) (body : Text)
    (okf : OkfMetadata) : WikiPage :=
  let rel := RelPath.asPosix path
  let orElse := fun (first second : Text) => if first = [] then second else first
  { id := cleanId (orElse (scalarText (frontmatter.getD "id")) rel)
    title := cleanText (orElse (scalarText (frontmatter.getD "title"))
      (orElse (firstHeading body) (titleFromPath path false)))
    path := rel
    role := okfPageRole role
    text := Text.strip body
    summary := orElse (scalarText (frontmatter.getD "description")) (summaryText body)
    frontmatter := frontmatter
    reviewState := .unknown
    status := okf.status
    sourceRefs :=
      unique (okf.sources.map okfSourceRefKey ++ stringList (frontmatter.getD "source_refs"))
    tags := unique (stringList (frontmatter.getD "tags") ++ extractInlineTags body)
    links := extractLinks .targetFirst body
    headings := (headingTexts body).take 40
    updatedAt := (okf.generated.map OkfActorEvent.at_).getD []
    okf := some okf }

def parseOkfV02Page (role : OkfDocumentRole) (path : RelPath) (content : Content) :
    Except LoadError WikiPage := do
  let rel := RelPath.asPosix path
  let raw ← content.readText
  let (entries, body) ← splitOkfFrontmatter rel raw
  checkOkfVersion rel entries
  let conceptType ← okfConceptType role rel entries
  let okf ← normalizeOkfMetadata role conceptType entries
  let frontmatter ← stringKeys entries
  return { okfPage role path (textKeys entries) body okf with frontmatter := frontmatter }

/-- The pages of a bundle, its log files being left out. -/
def parseOkfV02Pages (files : List (RelPath × Content)) : Except LoadError (List WikiPage) := do
  let documents := files.filter fun file => okfDocumentRole file.1 ≠ .log
  let pages ← documents.mapM fun file =>
    parseOkfV02Page (okfDocumentRole file.1) file.1 file.2
  if pages = [] then okfError "OKF bundle has no serveable markdown pages"
  return pages

end Pages

end LlmWikiServe
