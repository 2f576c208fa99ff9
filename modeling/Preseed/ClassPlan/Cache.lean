import Preseed.ClassPlan.Configuration

/-!
# The plan and the cache

`emit_plan` prints the records with tab-separated cells, and `installer_classes_cache_ensure`
reads them back into shell variables, whose names `installer_ini_get` computes again.
-/

namespace Preseed.ClassPlan

/-! ### The plan -/

/-- The cell of an empty value. -/
def emptyCell : Text := "__EMPTY__".toList

/-- `plan_cell`. -/
def planCell (value : Text) : Text := if value = [] then emptyCell else value

/-- `print`, with `OFS = "\t"`. -/
def printCells (cells : List Text) : Text := List.intercalate ['\t'] cells

/-- The cells of a record in the plan. -/
def planCells (state : Text → Field → Text) (header : Header) : List Text :=
  (match header with
    | .group name => ["group".toList, name]
    | .cls groupName className => ["class".toList, groupName, className]) ++
    header.fields.map fun field => planCell (state header.sectionName field)

/-- The record is a group. -/
def Header.isGroup : Header → Bool
  | group _ => true
  | cls _ _ => false

/-- `emit_plan`: the lines of the plan, groups first. -/
def emitPlan (manifest : Manifest) (p : Program) : List Text :=
  let version := manifest.version.getD []
  let formats := manifest.classTokenFormats.getD []
  (if version = [] then [] else
    [printCells ["manifest".toList, "version".toList, version]]) ++
  (if formats = [] then [] else
    [printCells ["manifest".toList, "class_token_formats".toList, formats]]) ++
  ((p.records.filter fun r => r.header.isGroup) ++
    p.records.filter fun r => !r.header.isGroup).map fun r =>
      printCells (planCells p.state r.header)

/-- `installer_generate_class_plan`, from the lines of the files to the lines of the plan. -/
def generateClassPlan (installConf : List Text) (configs : List (Text × List Text)) :
    Except String (Program × List Text) := do
  let manifest ← parseInstallConf installConf
  if configs.isEmpty then .error "classes/install.conf resolved no readable config sources"
  let p ← configs.foldlM parseConfigFile Program.begin
  let p ← finalizeRecord p
  pure (p, emitPlan manifest p)

/-! ### The cache -/

/-- `read -r` into `n` variables, with `IFS` a tab. The last variable gets the rest. -/
def readVariables : ℕ → Text → List Text
  | 0, _ => []
  | 1, line => [(line.dropWhile (· = '\t')).rdropWhile (· = '\t')]
  | n + 2, line =>
    let line := line.dropWhile (· = '\t')
    line.takeWhile (· ≠ '\t') :: readVariables (n + 1) (line.dropWhile (· ≠ '\t'))

/-- A byte that a variable name keeps. -/
def isTokenByte (c : Char) : Bool := 'A' ≤ c ∧ c ≤ 'Z' ∨ 'a' ≤ c ∧ c ≤ 'z' ∨ '0' ≤ c ∧ c ≤ '9'

/-- `installer_classes_cache_name_token`. -/
def nameToken (name : Text) : Text := name.map fun c => if isTokenByte c then c else '_'

/-- `installer_classes_value_var_name`. -/
def valueVarName (sectionName keyName : Text) : Text :=
  "INSTALLER_CLASSES_VALUE__".toList ++ nameToken sectionName ++ '_' :: '_' :: nameToken keyName

/-- `installer_classes_plan_field_value`. -/
def planFieldValue (cell : Text) : Text := if cell = emptyCell then [] else cell

/-- `installer_classes_cache_maybe_set_value`: what it assigns. -/
def maybeSetValue (sectionName keyName value : Text) : List (Text × Text) :=
  if value = [] then [] else [(valueVarName sectionName keyName, value)]

/-- The assignments of a record's fields, from their cells. -/
def setFields (header : Header) (cells : List Text) : List (Text × Text) :=
  (header.fields.zip cells).flatMap fun (field, cell) =>
    maybeSetValue header.sectionName field.key.toList (planFieldValue cell)

/-- The assignments of `installer_classes_cache_ensure` at one line of the plan. -/
def cacheLine (line : Text) : List (Text × Text) :=
  match readVariables 18 line with
  | kind :: a :: b :: cells =>
    if kind = "manifest".toList then maybeSetValue "manifest".toList a b
    else if kind = "group".toList then
      if a = [] then [] else setFields (.group a) (b :: cells)
    else if kind = "class".toList then
      if a = [] ∨ b = [] then [] else setFields (.cls a b) cells
    else []
  | _ => []

/-- `eval "$value_var=..."`. -/
def assign (cache : Text → Option Text) (set : Text × Text) : Text → Option Text :=
  Function.update cache set.1 (some set.2)

/-- `installer_classes_cache_ensure`: the variables after all assignments. -/
def cacheEnsure (plan : List Text) : Text → Option Text :=
  (plan.flatMap cacheLine).foldl assign fun _ => none

/-- `installer_ini_get`, for the cached configuration. -/
def iniGet (cache : Text → Option Text) (sectionName keyName : Text) : Option Text :=
  cache (valueVarName sectionName keyName)

end Preseed.ClassPlan
