/-
Module: JupiterStorage.Model.Protocol
Purpose: The session of the smart protocol (`ceres::protocol`): its transport, the two services
  and their names, the capability tokens a client may declare, the side-band channels, a new
  session, and how a session's path is mapped to the monorepo root. A `PathBuf` is compared as
  `std::path::Path` compares paths, by their components, which are modelled as on Unix.
Trusted boundary: `Path::components` on Unix, `env::var`
Main exports: TransportProtocol, ServiceType, ServiceType.toString, ServiceType.fromStr,
  Capability, Capability.fromStr, SideBind, SideBind.value, Component, Component.ofPart,
  hasPhysicalRoot, includeCurDir, components, SmartProtocol, SmartProtocol.new,
  SmartProtocol.mock, monorepoRootName, SmartProtocol.handleMonorepoRootPath
-/
import JupiterStorage.Model.Refs

namespace Jupiter

/-- `TransportProtocol`, whose `Default` is `Http`. -/
inductive TransportProtocol where
  | «local»
  | http
  | ssh
  | git
  | p2p
deriving DecidableEq, Repr

instance : Inhabited TransportProtocol := ⟨.http⟩

/-- `ServiceType`: the service a session runs, a fetch or a push. -/
inductive ServiceType where
  | uploadPack
  | receivePack
deriving DecidableEq, Repr

/-- `ServiceType::from_str`: the two service names, and for any other text a `MegaError` with
code 400 that names it. -/
def ServiceType.fromStr (s : String) : Except MegaError ServiceType :=
  match s with
  | "git-upload-pack" => .ok .uploadPack
  | "git-receive-pack" => .ok .receivePack
  | _ => .error ⟨"Invalid service name: " ++ s, 400⟩

/-- `Capability`: the capabilities a client may declare. -/
inductive Capability where
  | multiAck
  | multiAckDetailed
  | noDone
  | sideBand
  | sideBand64k
  | reportStatus
  | reportStatusv2
  | ofsDelta
  | deepenSince
  | deepenNot
deriving DecidableEq, Repr

/-- `Capability::from_str`: one token, matched exactly; `Err(())` for any other text. -/
def Capability.fromStr (s : String) : Except Unit Capability :=
  match s with
  | "report-status" => .ok .reportStatus
  | "report-status-v2" => .ok .reportStatusv2
  | "side-band" => .ok .sideBand
  | "side-band-64k" => .ok .sideBand64k
  | "ofs-delta" => .ok .ofsDelta
  | "multi_ack" => .ok .multiAck
  | "multi_ack_detailed" => .ok .multiAckDetailed
  | "no-done" => .ok .noDone
  | "deepen-since" => .ok .deepenSince
  | "deepen-not" => .ok .deepenNot
  | _ => .error ()

/-- `SideBind`: the side-band channels. -/
inductive SideBind where
  /-- Packfile data. -/
  | packfileData
  /-- Progress information, which the client prints to stderr. -/
  | progressInfo
  /-- Error information. -/
  | error
deriving DecidableEq, Repr

/-- `SideBind::value`: the channel's byte. -/
def SideBind.value : SideBind → UInt8
  | .packfileData => 1
  | .progressInfo => 2
  | .error => 3

/-! ### Paths -/

/-- `std::path::Component` on Unix, where a path has no prefix. -/
inductive Component where
  | rootDir
  | curDir
  | parentDir
  | normal (name : String)
deriving DecidableEq, Repr

/-- A part of a path between separators, as `Components` reads it: an empty part and `.` are
skipped, `..` is `ParentDir`, and any other part is `Normal`. -/
def Component.ofPart (part : List Char) : Option Component :=
  if part = [] ∨ part = ['.'] then none
  else if part = ['.', '.'] then some .parentDir
  else some (.normal (String.mk part))

/-- `Components::has_physical_root` on Unix: the path starts with a separator. -/
def hasPhysicalRoot (chars : List Char) : Bool :=
  chars.head? == some '/'

/-- `Components::include_cur_dir`: a path without a root whose first part is `.` keeps it, as
`CurDir`. -/
def includeCurDir (chars : List Char) : Bool :=
  !hasPhysicalRoot chars && chars.head? == some '.' && chars.tail.head?.all (· == '/')

/-- `Path::components` on Unix: `RootDir` for a leading separator, `CurDir` for a leading `.`
part, then the other parts. Two paths are equal, as `Path`s, when their components are. -/
def components (path : String) : List Component :=
  (if hasPhysicalRoot path.data then [.rootDir] else []) ++
    (if includeCurDir path.data then [.curDir] else []) ++
    (path.data.splitOn '/').filterMap Component.ofPart

/-! ### The session -/

/-- `SmartProtocol`, without its `context`: the handle to storage that no modelled method here
reads. -/
structure SmartProtocol where
  transportProtocol : TransportProtocol
  capabilities : List Capability
  path : String
  commandList : List RefCommand
  serviceType : ServiceType

/-- `SmartProtocol::new`: no capabilities or commands yet, and the service `ReceivePack`. -/
def SmartProtocol.new (path : String) (transportProtocol : TransportProtocol) : SmartProtocol :=
  ⟨transportProtocol, [], path, [], .receivePack⟩

/-- `SmartProtocol::mock`: the default transport and the empty path. -/
def SmartProtocol.mock : SmartProtocol :=
  ⟨default, [], "", [], .receivePack⟩

/-- The environment variable naming the monorepo's root. -/
def monorepoRootName : String :=
  "MEGA_MONOREPO_ROOT_NAME"

/-- `SmartProtocol::handle_monorepo_root_path`, in the process environment `env`: the path
becomes `/` when it equals, as a `Path`, the root name that `env::var(..).unwrap()` reads. -/
def SmartProtocol.handleMonorepoRootPath (env : String → Option String)
    (session : SmartProtocol) : Except Fault SmartProtocol :=
  match env monorepoRootName with
  | none => .error (.envVarMissing monorepoRootName)
  | some rootName =>
      .ok (if components session.path = components rootName then { session with path := "/" }
        else session)

end Jupiter
