import HostAgent.Config.Arguments
import HostAgent.Executor

namespace HostAgent

/-!
# The configuration of an agent

Every setting has a value, the default one where none was given. Only a configuration without any
endpoint of the store is turned down, unless engine and store are simulated.
-/

structure Config where
  /-- The endpoints of the shared store. -/
  servers : List String
  /-- The root of the records in the store. -/
  root : String
  /-- The image of engines as long as no settings are stored. -/
  image : String
  port : UInt16
  /-- The socket of the container engine. -/
  socket : String
  /-- Where the identity of the host is kept. -/
  configDir : String
  deviceRoot : String
  apiSeconds : UInt64
  deviceSeconds : UInt64
  stopSeconds : UInt64
  pollMilliseconds : UInt64
  /-- Whether engine and store are simulated. -/
  simulated : Bool
  logLevel : String
  deriving DecidableEq, Repr

namespace Config

def defaultPort : UInt16 := 9500

/-- The configuration with a default for each value that is not given. -/
def ofGiven (g : Given) : Config where
  servers := (g .servers).getD ([] : List String)
  root := (g .root).getD "/longhorn"
  image := (g .image).getD "rancher/longhorn:latest"
  port := (g .port).getD defaultPort
  socket := (g .socket).getD "/var/run/docker.sock"
  configDir := (g .configDir).getD "/var/lib/rancher/longhorn"
  deviceRoot := (g .deviceRoot).getD "/dev/longhorn"
  apiSeconds := (g .apiBudget).getD (30 : UInt64)
  deviceSeconds := (g .deviceBudget).getD (30 : UInt64)
  stopSeconds := (g .stopBudget).getD (60 : UInt64)
  pollMilliseconds := (g .pollInterval).getD (1000 : UInt64)
  simulated := (g .simulated).getD false
  logLevel := (g .logLevel).getD "info"

instance : Inhabited Config := ⟨ofGiven .nothing⟩

def parse (args : List String) (env : String → Option String) : Except Fault Config :=
  (read args env).map ofGiven

inductive Invalid where
  | noServers
  deriving DecidableEq, Repr

def Invalid.message : Invalid → String
  | .noServers => "unspecified etcd servers"

def validate (c : Config) : Except Invalid Unit :=
  if c.servers.isEmpty && !c.simulated then .error .noServers else .ok ()

/-- How long the executor waits, and where it waits for devices. -/
def budgets (c : Config) : Budgets where
  api := .seconds c.apiSeconds.toNat
  device := .seconds c.deviceSeconds.toNat
  stop := .seconds c.stopSeconds.toNat
  deviceRoot := c.deviceRoot

def members (c : Config) : List (String × Json) :=
  [("etcd_servers", .strings c.servers), ("etcd_prefix", .string c.root),
    ("longhorn_image", .string c.image), ("port", .number (.integer c.port.toNat)),
    ("docker_socket", .string c.socket), ("config_dir", .string c.configDir),
    ("device_root", .string c.deviceRoot), ("wait_api_timeout_secs", .ofWord c.apiSeconds),
    ("wait_device_timeout_secs", .ofWord c.deviceSeconds),
    ("container_stop_timeout_secs", .ofWord c.stopSeconds),
    ("poll_interval_ms", .ofWord c.pollMilliseconds), ("mock_runtime", .bool c.simulated),
    ("log_level", .string c.logLevel)]

end Config

end HostAgent
