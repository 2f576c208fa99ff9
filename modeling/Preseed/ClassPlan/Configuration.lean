import Mathlib.Data.List.DropRight

/-!
# Class configuration files

The awk program of `installer_generate_class_plan` up to its output: `classes/install.conf`
and the configuration files are read line by line into group and class records. A text
is a list of bytes, shown as the characters with their numbers, and a file is the list of
its lines.
-/

namespace Preseed.ClassPlan

/-- A byte string. -/
abbrev Text := List Char

/-- `[[:space:]]`. -/
def isSpace (c : Char) : Bool := c.toNat ∈ [9, 10, 11, 12, 13, 32]

/-- `trim`. -/
def trim (value : Text) : Text := (value.dropWhile isSpace).rdropWhile isSpace

/-- `gsub(/[[:space:]]+/, " ", value)`, after a blank or not. -/
def squeeze : Bool → Text → Text
  | _, [] => []
  | blank, c :: rest =>
    if isSpace c then if blank then squeeze true rest else ' ' :: squeeze true rest
    else c :: squeeze false rest

/-- `normalize_word_list`. -/
def normalizeWordList (value : Text) : Text :=
  squeeze false ((trim value).map fun c => if c = ',' then ' ' else c)

/-- `tolower`, on bytes. -/
def toLower (value : Text) : Text := value.map Char.toLower

/-- The fields of a record. -/
inductive Field
  | type | group | name
  | required | multi | order | purpose | source | description
  | hostVariant | lateHelper | lateHelperOrder | earlyHelper | partmanHelper
  | hostProfilePrefix | hostFamily | hookFamily | installDiskCandidates | defaultInstallDisk
  | allowedHardwareClasses | rejectedClasses | requiresClasses | debianAptPreferences
  deriving DecidableEq

namespace Field

/-- The key of a field. -/
def key : Field → String
  | type => "type"
  | group => "group"
  | name => "name"
  | required => "required"
  | multi => "multi"
  | order => "order"
  | purpose => "purpose"
  | source => "source"
  | description => "description"
  | hostVariant => "host_variant"
  | lateHelper => "late_helper"
  | lateHelperOrder => "late_helper_order"
  | earlyHelper => "early_helper"
  | partmanHelper => "partman_helper"
  | hostProfilePrefix => "host_profile_prefix"
  | hostFamily => "host_family"
  | hookFamily => "hook_family"
  | installDiskCandidates => "install_disk_candidates"
  | defaultInstallDisk => "default_install_disk"
  | allowedHardwareClasses => "allowed_hardware_classes"
  | rejectedClasses => "rejected_classes"
  | requiresClasses => "requires_classes"
  | debianAptPreferences => "debian_apt_preferences"

/-- The field is a list of words. -/
def isWordList : Field → Bool
  | allowedHardwareClasses | debianAptPreferences | installDiskCandidates | rejectedClasses
  | requiresClasses => true
  | _ => false

end Field

/-- `config_field_key`. -/
def configFieldKey (fieldName : Text) : Option Field :=
  match String.ofList fieldName with
  | "Type" | "type" => some .type
  | "Group" | "group" => some .group
  | "Name" | "name" => some .name
  | "Required" | "required" => some .required
  | "Multi" | "multi" => some .multi
  | "Order" | "order" => some .order
  | "Purpose" | "purpose" => some .purpose
  | "Source" | "source" => some .source
  | "Description" | "description" => some .description
  | "HostVariant" | "Host-Variant" | "host_variant" => some .hostVariant
  | "LateHelper" | "Late-Helper" | "late_helper" => some .lateHelper
  | "LateHelperOrder" | "Late-Helper-Order" | "late_helper_order" => some .lateHelperOrder
  | "EarlyHelper" | "Early-Helper" | "early_helper" => some .earlyHelper
  | "PartmanHelper" | "Partman-Helper" | "partman_helper" => some .partmanHelper
  | "HostProfilePrefix" | "Host-Profile-Prefix" | "host_profile_prefix" => some .hostProfilePrefix
  | "HostFamily" | "Host-Family" | "host_family" => some .hostFamily
  | "HookFamily" | "Hook-Family" | "hook_family" => some .hookFamily
  | "InstallDiskCandidates" | "Install-Disk-Candidates" | "install_disk_candidates" =>
    some .installDiskCandidates
  | "DefaultInstallDisk" | "Default-Install-Disk" | "default_install_disk" =>
    some .defaultInstallDisk
  | "AllowedHardwareClasses" | "Allowed-Hardware-Classes" | "allowed_hardware_classes" =>
    some .allowedHardwareClasses
  | "RejectedClasses" | "Rejected-Classes" | "rejected_classes" => some .rejectedClasses
  | "RequiresClasses" | "Requires-Classes" | "requires_classes" => some .requiresClasses
  | "DebianAptPreferences" | "Debian-Apt-Preferences" | "debian_apt_preferences" =>
    some .debianAptPreferences
  | _ => none

/-- `normalize_field_value`. -/
def normalizeFieldValue (field : Field) (value : Text) : Text :=
  if field.isWordList then normalizeWordList value else trim value

/-- What a record describes. -/
inductive Header
  | group (name : Text)
  | cls (groupName className : Text)
  deriving DecidableEq

namespace Header

/-- The section of a record. -/
def sectionName : Header → Text
  | group name => "group.".toList ++ name
  | cls groupName className => "class.".toList ++ groupName ++ '.' :: className

/-- The fields that are stored for a record. -/
def fields : Header → List Field
  | group _ => [.required, .multi, .order, .purpose, .source, .description]
  | cls _ _ => [.description, .hostVariant, .lateHelper, .lateHelperOrder, .earlyHelper,
    .partmanHelper, .hostProfilePrefix, .hostFamily, .hookFamily, .installDiskCandidates,
    .defaultInstallDisk, .allowedHardwareClasses, .rejectedClasses, .requiresClasses,
    .debianAptPreferences]

end Header

/-- A record with its normalised field values; an absent field is empty. -/
structure Record where
  header : Header
  values : Field → Text

/-- The variables of the awk program. -/
structure Program where
  /-- `record_values`, `record_seen` and `record_active`. -/
  values : Field → Text
  seen : Field → Bool
  active : Bool
  /-- `current_config_path` and `current_config_line`. -/
  path : Text
  line : ℕ
  /-- The records so far, in order. -/
  records : List Record
  /-- `state_values`, by section and field. -/
  state : Text → Field → Text

/-- The program before its first configuration file. -/
def Program.begin : Program := ⟨fun _ => [], fun _ => false, false, [], 0, [], fun _ _ => []⟩

/-- `record_reset`. -/
def Program.recordReset (p : Program) : Program :=
  { p with values := fun _ => [], seen := fun _ => false, active := false, path := [], line := 0 }

/-- `state_set`. -/
def stateSet (state : Text → Field → Text) (sectionName : Text) (field : Field) (value : Text) :
    Text → Field → Text :=
  if value = [] then state
  else Function.update state sectionName (Function.update (state sectionName) field value)

/-- The record is appended, and its fields are stored. -/
def Program.store (p : Program) (record : Record) : Program :=
  { p with
    records := p.records ++ [record]
    state := record.header.fields.foldl
      (fun state field => stateSet state record.header.sectionName field (record.values field))
      p.state }

/-- `finalize_record`. -/
def finalizeRecord (p : Program) : Except String Program :=
  let path := String.ofList p.path
  if ¬p.active then .ok p
  else if toLower (p.values .type) = "group".toList then
    let name := p.values .name
    if name = [] then .error ("group record in " ++ path ++ " is missing Name")
    else if p.values .group ≠ [] then
      .error ("group record in " ++ path ++ " must not define Group: " ++
        String.ofList (p.values .group))
    else if p.records.any fun r => r.header = .group name then
      .error ("duplicate group record in configs/groups.cfg: " ++ String.ofList name)
    else .ok (p.store ⟨.group name, p.values⟩).recordReset
  else if toLower (p.values .type) = "class".toList then
    let group := p.values .group
    let name := p.values .name
    if group = [] then .error ("class record in " ++ path ++ " is missing Group")
    else if name = [] then .error ("class record in " ++ path ++ " is missing Name")
    -- `class_seen` is indexed by `group_name "/" class_name`.
    else if p.records.any fun r =>
        match r.header with
        | .group _ => false
        | .cls group' name' => group' ++ '/' :: name' = group ++ '/' :: name then
      .error ("duplicate class record in configs/*.cfg: " ++
        String.ofList (group ++ '/' :: name))
    else .ok (p.store ⟨.cls group name, p.values⟩).recordReset
  else .error ("record in " ++ path ++ " must define Type: group or Type: class")

/-- `record_assign_field`. -/
def recordAssignField (p : Program) (fieldName fieldValue : Text) : Except String Program :=
  let place := String.ofList p.path ++ ":" ++ toString p.line ++ ": " ++ String.ofList fieldName
  match configFieldKey fieldName with
  | none => .error ("unsupported field in " ++ place)
  | some field =>
    if p.seen field then .error ("duplicate field in " ++ place)
    else .ok { p with
      values := Function.update p.values field (normalizeFieldValue field fieldValue)
      seen := Function.update p.seen field true
      active := true }

/-- `sub(/\r$/, "", line)`. -/
def stripReturn (line : Text) : Text :=
  if line.getLast? = some '\r' then line.dropLast else line

/-- `parse_config_file` at one line. -/
def parseLine (path : Text) (p : Program) (line : Text) : Except String Program :=
  let p := { p with line := p.line + 1 }
  let line := stripReturn line
  if line.all isSpace then finalizeRecord p
  else if (line.dropWhile isSpace).head? = some '#' then .ok p
  else if ':' ∈ line then
    recordAssignField p (trim (line.takeWhile (· ≠ ':'))) ((line.dropWhile (· ≠ ':')).drop 1)
  else .error ("malformed config line in " ++ String.ofList path ++ ":" ++ toString p.line ++
    ": expected Field: value")

/-- `parse_config_file`: a path and its lines. -/
def parseConfigFile (p : Program) (file : Text × List Text) : Except String Program := do
  let p ← file.2.foldlM (parseLine file.1) { p with path := file.1, line := 0 }
  finalizeRecord p

/-- `manifest_version` and `class_token_formats`, with whether they were seen. -/
structure Manifest where
  version : Option Text
  classTokenFormats : Option Text
  deriving DecidableEq

/-- `parse_install_conf` at one line, with its number. -/
def parseInstallLine (manifest : Manifest) (numbered : Text × ℕ) : Except String Manifest :=
  let line := stripReturn numbered.1
  if line.all isSpace ∨ (line.dropWhile isSpace).head? = some '#' then .ok manifest
  else if ':' ∈ line then
    let fieldName := String.ofList (trim (line.takeWhile (· ≠ ':')))
    let fieldValue := trim ((line.dropWhile (· ≠ ':')).drop 1)
    if fieldName = "ManifestVersion" then
      if manifest.version.isSome then
        .error "duplicate ManifestVersion in classes/install.conf"
      else .ok { manifest with version := some fieldValue }
    else if fieldName = "ClassTokenFormats" then
      if manifest.classTokenFormats.isSome then
        .error "duplicate ClassTokenFormats in classes/install.conf"
      else .ok { manifest with classTokenFormats := some (normalizeWordList fieldValue) }
    else if fieldName = "Config" then .ok manifest
    else .error ("unsupported field in classes/install.conf line " ++ toString numbered.2 ++
      ": " ++ fieldName)
  else .error ("malformed classes/install.conf line " ++ toString numbered.2 ++
    ": expected Field: value")

/-- `parse_install_conf`. -/
def parseInstallConf (lines : List Text) : Except String Manifest :=
  (lines.zipIdx 1).foldlM parseInstallLine ⟨none, none⟩

end Preseed.ClassPlan
