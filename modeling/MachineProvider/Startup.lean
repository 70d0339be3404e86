import MachineProvider.Cloud.Exchange
import MachineProvider.Error
import MachineProvider.Kubeconfig
import MachineProvider.LogFilter
import MachineProvider.SocketAddress
/-! The start of the process: its settings, what it logs about them and why it may fail. -/
namespace MachineProvider

structure Settings where
  apiUrl : String
  /-- The token of machines that name no secret for one; it may be empty. -/
  defaultToken : String
  /-- The namespace to watch; without one all are watched. -/
  space : Option String
  probeAddress : SocketAddress
  userAgent : String

namespace Settings

def defaultApiUrl : String := "https://api.cloudscale.ch"

def defaultProbeAddress : String := "0.0.0.0:8081"

def standardUserAgent : String := "machine-api-provider-cloudscale.appuio.io/0.1.0"

/-- Settings from the environment's variables. -/
def ofEnvironment (get? : String → Option String) : Except Error Settings :=
  let address := (get? "HEALTH_PROBE_BIND_ADDRESS").getD defaultProbeAddress
  match SocketAddress.parse? address with
  | none => .error (.invalidConfig "HEALTH_PROBE_BIND_ADDRESS: invalid socket address syntax")
  | some probeAddress => .ok
    { apiUrl := (get? "CLOUDSCALE_API_URL").getD defaultApiUrl
      defaultToken := (get? "CLOUDSCALE_API_TOKEN").getD ""
      space := (get? "WATCH_NAMESPACE").filter (!·.isEmpty)
      probeAddress := probeAddress
      userAgent := standardUserAgent }

end Settings

namespace Startup

/-- A line of the log. -/
structure LogLine where
  level : LogLevel
  text : String

def LogLine.render (l : LogLine) : String := s!"{l.level.text} {l.text}"

def target : String := "machine_api_provider_cloudscale"

def greeting : LogLine := ⟨.info, "Starting cloudscale machine controller"⟩

/-- What is logged about the settings. -/
def describe (s : Settings) : List LogLine :=
  [⟨.info, "Configuration:"⟩,
    ⟨.info, s!"  cloudscale API URL: {s.apiUrl}"⟩,
    ⟨.info, "  Namespace: " ++ s.space.getD "all namespaces"⟩,
    ⟨.info, s!"  Health probes: {s.probeAddress.text}"⟩] ++
  if s.defaultToken.isEmpty then
    [⟨.warn,
      "CLOUDSCALE_API_TOKEN is not set; only Machines with a token secret can be reconciled"⟩]
  else []

/-- A controller that has been set up. -/
structure Controller where
  settings : Settings
  factory : Cloud.Factory
  server : String

/-- Needs a control plane first, then a user agent that can be sent. -/
def prepare (s : Settings) (kubeconfig : Option String) : Except Error Controller :=
  match Kubeconfig.serverOf? kubeconfig with
  | none => .error (.control .unusable)
  | some server => do
    let factory ← (Cloud.Factory.new s.apiUrl s.userAgent).mapError .cloud
    return ⟨s, factory, server⟩

/-- How a running controller ends: at once if its probes cannot be served, else never. -/
def failure? (c : Controller) : Option Error :=
  if c.settings.probeAddress.isLocal then none
  else some (.invalidConfig "probe server failed: <os error>")

/-- The log of a start and the text of the failure that ends it, if any. -/
structure Outcome where
  log : List LogLine
  failure : Option String

def start (get? : String → Option String) (kubeconfig : Option String) : Outcome :=
  match Settings.ofEnvironment get? with
  | .error e => ⟨[greeting], some e.message⟩
  | .ok settings =>
    let log := greeting :: describe settings
    match prepare settings kubeconfig with
    | .error _ => ⟨log, some "failed to start controller"⟩
    | .ok controller => ⟨log, (failure? controller).map (·.message)⟩

/-- The lines a log filter lets through. -/
def shown (get? : String → Option String) (log : List LogLine) : List LogLine :=
  let filter := LogFilter.ofSetting (get? "RUST_LOG")
  log.filter fun l => filter.shows target l.level

end Startup

end MachineProvider
