import Preseed.NetworkSharing.Fstab

/-!
# The settings of the shared mounts

The values that the records of the managed block are made of, with the checks of
`Settings.from_environment` on them, and the update of the file that `configure` makes
with accepted settings.
-/

namespace Preseed.NetworkSharing

open Ipaddress (Text asciiDigits ofDigits ipv4Int)
open DesktopFirewall (isspace)

/-! ## Accepted values -/

/-- A letter or a digit of ASCII, `_`, `.`, `/` or `-`. -/
def isPathCharacter (c : Char) : Bool := c.isAlphanum || ['_', '.', '/', '-'].contains c

/-- `value.lstrip('/').split('/')`. -/
def pathParts (value : Text) : List Text := (value.dropWhile (· = '/')).splitOn '/'

/-- A part that a normalized path does not have. -/
def dottedPart (part : Text) : Bool := part = [] || part = ['.'] || part = ['.', '.']

/-- `normalized_path` accepts the value. -/
def normalizedPath (relative allowRoot : Bool) (value : Text) : Bool :=
  value ≠ [] && value.length ≤ 2048 && value.all isPathCharacter &&
    (value.head? = some '/') ≠ relative && (value ≠ ['/'] || allowRoot) &&
    !(List.isPrefixOf ['/', '/'] value) && (value = ['/'] || !(pathParts value).any dottedPart)

/-- `bounded_integer` accepts the value. -/
def boundedInteger (lower upper : ℕ) (value : Text) : Bool :=
  asciiDigits value && lower ≤ ofDigits 10 value && ofDigits 10 value ≤ upper

/-- `private_ipv4` accepts the value: an address of `10.0.0.0/8`, `172.16.0.0/12` or
`192.168.0.0/16`. -/
def privateIpv4 (value : Text) : Bool :=
  !value.contains '/' && (ipv4Int value).any fun ip =>
    ip / 2 ^ 24 = 10 || ip / 2 ^ 20 = 172 * 16 + 1 || ip / 2 ^ 16 = 192 * 256 + 168

/-- `mount_options` accepts the value. -/
def mountOptions (required optional : List Text) (value : Text) : Bool :=
  let options := value.splitOn ','
  value ≠ [] && value.length ≤ 16384 && options.Nodup && required.all options.contains &&
    options.all (fun option => required.contains option || optional.contains option) &&
    !(options.contains "ro".toList && options.contains "rw".toList)

/-- The environment variables that the records of the block are made of. -/
structure Values where
  /-- `NFS_CLIENT_ENABLE` -/
  nfsClientEnable : Text
  /-- `NFS_CLIENT_READ_ONLY` -/
  nfsClientReadOnly : Text
  /-- `NETWORK_SHARING_ROOT_PATH` -/
  networkSharingRootPath : Text
  /-- `NFS_SERVER_PATH` -/
  nfsServerPath : Text
  /-- `NFS_CLIENT_PATH` -/
  nfsClientPath : Text
  /-- `ACCOUNT_HOME` -/
  accountHome : Text
  /-- `NETWORK_SHARING_HOME_BIND_PATH` -/
  networkSharingHomeBindPath : Text
  /-- `NFS_SERVER_PORT` -/
  nfsServerPort : Text
  /-- `NFS_CLIENT_MOUNT_TIMEOUT` -/
  nfsClientMountTimeout : Text
  /-- `NFS_CLIENT_TARGET_IP` -/
  nfsClientTargetIp : Text
  /-- `NFS_CLIENT_EXPORT_PATH` -/
  nfsClientExportPath : Text
  /-- `NFS_CLIENT_VERSION` -/
  nfsClientVersion : Text
  /-- `NFS_MNT_CLIENT_TARGET_SHARE_OPTS` -/
  nfsMntClientTargetShareOpts : Text

/-- The value of a setting in `BOOLS`. -/
def isBool (value : Text) : Bool := value = "true".toList || value = "false".toList

/-- A path is below another one. -/
def below (base path : Text) : Bool := (base ++ ['/']).isPrefixOf path

/-- Two paths where one is the other or below it. -/
def overlap (a b : Text) : Bool := a = b || below b a || below a b

/-- The mount options that a client needs. -/
def requiredOptions (v : Values) : List Text :=
  ["hard".toList, "proto=tcp".toList, "port=".toList ++ v.nfsServerPort, "resvport".toList,
    "sec=sys".toList, "vers=".toList ++ v.nfsClientVersion, "nosuid".toList, "nodev".toList,
    "noexec".toList, "nofail".toList, "x-systemd.requires=nfs-client.target".toList,
    "x-systemd.requires=nftables.service".toList,
    "x-systemd.requires=network-sharing-identity.service".toList, "_netdev".toList,
    "noauto".toList, "x-systemd.mount-timeout=".toList ++ v.nfsClientMountTimeout ++ ['s']]

/-- The checks of `Settings.from_environment` on these values. -/
structure Values.Accepted (v : Values) : Prop where
  bools : isBool v.nfsClientEnable ∧ isBool v.nfsClientReadOnly
  root : normalizedPath false false v.networkSharingRootPath
  /-- The root is below `/data`, `/pool` or `/srv`. -/
  base : ["/data".toList, "/pool".toList, "/srv".toList].any
    (below · v.networkSharingRootPath)
  sources : normalizedPath false false v.nfsServerPath ∧ normalizedPath false false v.nfsClientPath
  inside : below v.networkSharingRootPath v.nfsServerPath ∧
    below v.networkSharingRootPath v.nfsClientPath
  apart : overlap v.nfsServerPath v.nfsClientPath = false
  home : normalizedPath false false v.accountHome ∧ below "/home".toList v.accountHome
  /-- The home bind is one visible directory. -/
  bind : normalizedPath true false v.networkSharingHomeBindPath ∧
    (v.networkSharingHomeBindPath.splitOn '/').length = 1 ∧
    v.networkSharingHomeBindPath.head? ≠ some '.'
  port : boundedInteger 1024 65535 v.nfsServerPort
  timeout : boundedInteger 5 120 v.nfsClientMountTimeout
  target : privateIpv4 v.nfsClientTargetIp
  exported : normalizedPath false true v.nfsClientExportPath
  version : v.nfsClientVersion = "4.1".toList ∨ v.nfsClientVersion = "4.2".toList
  options : mountOptions (requiredOptions v) ["ro".toList, "rw".toList]
    v.nfsMntClientTargetShareOpts
  /-- The options have `ro` or `rw`. -/
  mode : (v.nfsMntClientTargetShareOpts.splitOn ',').any fun option =>
    option = "ro".toList || option = "rw".toList

/-- `Settings`: values that were accepted. -/
structure Settings where
  values : Values
  accepted : values.Accepted

/-! ## The records of the block -/

/-- `PurePosixPath(path).name`. -/
def pathName (path : Text) : Text := (path.reverse.takeWhile (· ≠ '/')).reverse

/-- `PurePosixPath(path).parent`, below the root directory. -/
def pathParent (path : Text) : Text := (path.reverse.dropWhile (· ≠ '/')).tail.reverse

/-- `storage_root`. -/
def storageRoot (v : Values) : Except String Text :=
  let name := '.' :: pathName v.networkSharingRootPath ++ "-store".toList
  if 255 < name.length then
    .error "sharing backing directory name exceeds the filesystem limit"
  else .ok (pathParent v.networkSharingRootPath ++ '/' :: name ++ "/root".toList)

/-- The home view of the shared directory. -/
def homeView (v : Values) : Text := v.accountHome ++ '/' :: v.networkSharingHomeBindPath

/-- The options of the client's mount. -/
def clientOptions (v : Values) : List Text :=
  let options := v.nfsMntClientTargetShareOpts.splitOn ','
  let options := if v.nfsClientReadOnly = "true".toList then
      options.map fun option => if option = "rw".toList then "ro".toList else option
    else options
  options ++ ["x-systemd.requires-mounts-for=".toList ++ v.networkSharingRootPath,
    "x-systemd.requires-mounts-for=".toList ++ homeView v]

/-- `fstab_entries`. -/
def fstabEntries (v : Values) : Except String (List Text) := do
  let storage ← storageRoot v
  let root := v.networkSharingRootPath
  let entries := [
    storage ++ ' ' :: root ++ " none bind,shared,nosuid,nodev,noexec 0 0".toList,
    root ++ ' ' :: homeView v ++
      " none rbind,rslave,nosuid,nodev,noexec,x-systemd.requires-mounts-for=".toList ++ root ++
      " 0 0".toList]
  return if v.nfsClientEnable = "true".toList then
      entries ++ [v.nfsClientTargetIp ++ ':' :: v.nfsClientExportPath ++
        ' ' :: v.nfsClientPath ++ " nfs ".toList ++ [','].intercalate (clientOptions v) ++
        " 0 0".toList]
    else entries

/-- The rows of the managed block. -/
def sharingRows (entries : List Text) : List Text :=
  "# Sharing bind mounts".toList :: entries.take 2 ++
    if 2 < entries.length then
      "# Remote NFS mount (started explicitly by nfsmnt)".toList :: entries.drop 2
    else []

/-- The managed block. -/
def managedBlock (entries : List Text) : Text :=
  beginMarker ++ '\n' :: ['\n'].intercalate (sharingRows entries) ++ '\n' :: endMarker ++ ['\n']

/-- `entry.split()[1]`. -/
def destination (entry : Text) : Text := (words entry).getD 1 []

/-- What `configure` makes of the text of `/etc/fstab`. -/
def updateFstab (s : Settings) (text : Text) : Except String Text := do
  let entries ← fstabEntries s.values
  let fstab ← withoutManagedBlock text
  if (splitlines fstab).any (owns (entries.map destination)) then
    throw "an unmanaged fstab entry already owns an NFS mount destination"
  formatFstab (appendBlock fstab (managedBlock entries))

end Preseed.NetworkSharing
