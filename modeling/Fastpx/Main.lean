import Fastpx.Relay.Idle
import Fastpx.Server.Serve

/-!
# The program

The command line of `main.rs`, the checks which it has to pass and the settings
it is turned into.  The checks bound the values from below only.  Two other
places compute with them: the semaphore of the accept loops, which has a largest
size, and the watchdog of every tunnel, which adds the idle timeout to an
instant.  `accepted_runs_iff` says which of the accepted values are safe there.

The log filter, the warning about a public listener and the binding of the
listener do not influence the settings and are not modelled.
-/

namespace Fastpx

open StreamKit Config Http1 Relay Server

/-- The command line. -/
structure Cli where
  listen : SocketAddr
  upstream : Endpoint
  auth : AuthMode
  routing : RoutingMode
  directCidrs : List IpCidr
  dnsTimeoutSeconds : UInt64
  connectTimeoutSeconds : UInt64
  idleTimeoutSeconds : UInt64
  maxHeaderBytes : UInt64
  maxConnections : UInt64

/-- The command line with nothing but `--upstream`. -/
def Cli.ofUpstream (upstream : Endpoint) : Cli where
  listen := .v4 0x7f000001#32 3128
  upstream := upstream
  auth := .auto
  routing := .auto
  directCidrs := []
  dnsTimeoutSeconds := 2
  connectTimeoutSeconds := 10
  idleTimeoutSeconds := 300
  maxHeaderBytes := 32 * 1024
  maxConnections := 4096

/-- Why a command line is refused. -/
inductive CliError where
  | maxHeaderBytes
  | maxConnections
  | dnsTimeout
  | nativeSspi
  deriving DecidableEq, Repr

def CliError.display : CliError → Text
  | .maxHeaderBytes => "--max-header-bytes must be at least 1024".toList
  | .maxConnections => "--max-connections must be greater than zero".toList
  | .dnsTimeout => "--dns-timeout-seconds must be greater than zero".toList
  | .nativeSspi => "native SSPI requires Windows; use --auth none on this platform".toList

/-- Nanoseconds in a second. -/
def second : Nat := 10 ^ 9

/-- `Duration::from_secs`. -/
def fromSecs (seconds : UInt64) : Nat := seconds.toNat * second

/-- The checks of `main`, and the settings it builds. -/
def Cli.configure (windows : Bool) (cli : Cli) : Except CliError ProxyConfig :=
  if cli.maxHeaderBytes < 1024 then .error .maxHeaderBytes
  else if cli.maxConnections = 0 then .error .maxConnections
  else if cli.dnsTimeoutSeconds = 0 then .error .dnsTimeout
  else if windows = false ∧ cli.auth ≠ .none then .error .nativeSspi
  else
    .ok {
      listen := cli.listen
      upstream := cli.upstream
      auth := cli.auth
      routing := cli.routing
      directCidrs := cli.directCidrs
      dnsTimeout := fromSecs cli.dnsTimeoutSeconds
      connectTimeout := fromSecs cli.connectTimeoutSeconds
      -- zero disables the timeout
      idleTimeout :=
        if cli.idleTimeoutSeconds ≠ 0 then some (fromSecs cli.idleTimeoutSeconds) else none
      maxHeaderBytes := cli.maxHeaderBytes.toNat
      maxConnections := cli.maxConnections.toNat }

/-- What an accepted command line says about the values which are used in
computations. -/
theorem configure_ok {windows : Bool} {cli : Cli} {config : ProxyConfig}
    (h : cli.configure windows = .ok config) :
    config.maxConnections = cli.maxConnections.toNat ∧
      config.idleTimeout =
        if cli.idleTimeoutSeconds ≠ 0 then some (fromSecs cli.idleTimeoutSeconds) else none := by
  unfold Cli.configure at h
  split at h
  · cases h
  split at h
  · cases h
  split at h
  · cases h
  split at h
  · cases h
  obtain rfl := Except.ok.inj h
  exact ⟨rfl, rfl⟩

/-- The limits of an accepted command line are bounded from below. -/
theorem configure_limits {windows : Bool} {cli : Cli} {config : ProxyConfig}
    (h : cli.configure windows = .ok config) :
    1024 ≤ config.maxHeaderBytes ∧ 0 < config.maxConnections := by
  unfold Cli.configure at h
  split at h
  · cases h
  next hheader =>
  split at h
  · cases h
  next hconnections =>
  split at h
  · cases h
  split at h
  · cases h
  obtain rfl := Except.ok.inj h
  refine ⟨?_, ?_⟩
  · have hle : (1024 : UInt64) ≤ cli.maxHeaderBytes := UInt64.not_lt.mp hheader
    exact UInt64.le_iff_toNat_le.mp hle
  · apply Nat.pos_of_ne_zero
    intro hzero
    exact hconnections (UInt64.toNat_inj.mp hzero)

/-- The defaults pass the checks, on Windows or without authentication. -/
theorem configure_ofUpstream {windows : Bool} {auth : AuthMode} (upstream : Endpoint)
    (h : windows = true ∨ auth = .none) :
    ∃ config, ({ Cli.ofUpstream upstream with auth := auth } : Cli).configure windows =
      .ok config := by
  have hauth : ¬ (windows = false ∧ auth ≠ .none) := by
    rcases h with rfl | rfl <;> simp
  exact ⟨_, if_neg hauth⟩

/-- An `Instant` with this many nanoseconds exists if its seconds do not
overflow. -/
def Representable (maxSeconds instant : Nat) : Prop :=
  instant / second ≤ maxSeconds

/-- No computation with the settings panics while the clock shows at most
`last`: the semaphore can be created, and in every run of every relay all
instants which the watchdog computes are representable.

These are the sums in the source.  When a sum is handed to the runtime's
`sleep_until`, its timer rounds the instant up to a whole millisecond, that is
by at most 999 999 nanoseconds; a deadline within a millisecond of the largest
instant can still overflow there. -/
def NeverPanics (config : ProxyConfig) (maxSeconds last : Nat) : Prop :=
  (ServeState.start config).isSome ∧
    ∀ up down start actions s,
      RelayState.machine.run (RelayState.start up down config.idleTimeout start) actions = some s →
      s.now ≤ last →
      ∀ t ∈ (RelayState.start up down config.idleTimeout start).deadlines actions,
        Representable maxSeconds t

theorem isSome_start_iff (config : ProxyConfig) :
    (ServeState.start config).isSome ↔ config.maxConnections ≤ maxPermits := by
  unfold ServeState.start
  split <;> simp_all

theorem add_fromSecs_div (t : Nat) (seconds : UInt64) :
    (t + fromSecs seconds) / second = t / second + seconds.toNat :=
  Nat.add_mul_div_right t _ (by decide)

/-- An instant before another one and the timeout is representable if the later
one is. -/
theorem representable_of_le {maxSeconds last now t : Nat} {seconds : UInt64} (hnow : now ≤ last)
    (ht : t ≤ now + fromSecs seconds) (hfits : last / second + seconds.toNat ≤ maxSeconds) :
    Representable maxSeconds t := by
  calc t / second ≤ (last + fromSecs seconds) / second := Nat.div_le_div_right (by omega)
    _ = last / second + seconds.toNat := add_fromSecs_div last seconds
    _ ≤ maxSeconds := hfits

/-- **Which accepted settings can run.**  A command line passes the checks of
`main`; then nothing panics in any run up to the instant `last` exactly if the
number of connections is within the size of a semaphore, and the idle timeout is
off or can be added to `last`.  Of the watchdog only its own sums are meant, not
what the runtime's timer adds to them. -/
theorem accepted_runs_iff {windows : Bool} {cli : Cli} {config : ProxyConfig}
    (h : cli.configure windows = .ok config) (maxSeconds last : Nat) :
    NeverPanics config maxSeconds last ↔
      cli.maxConnections.toNat ≤ maxPermits ∧
        (cli.idleTimeoutSeconds = 0 ∨
          last / second + cli.idleTimeoutSeconds.toNat ≤ maxSeconds) := by
  obtain ⟨hconnections, hidle⟩ := configure_ok h
  rw [NeverPanics, isSome_start_iff, hconnections, hidle]
  refine and_congr_right fun _ => ?_
  by_cases hzero : cli.idleTimeoutSeconds = 0
  · rw [if_neg (not_not_intro hzero)]
    refine iff_of_true ?_ (Or.inl hzero)
    intro up down start actions s hrun _ t hmem
    obtain ⟨timeout, hnone, -⟩ := deadlines_near hrun t hmem
    cases hnone
  · rw [if_pos hzero, or_iff_right hzero]
    constructor
    · intro hall
      -- a relay which starts at `last` computes its first deadline at once
      have hfirst := hall ⟨⟨[], none⟩, [], []⟩ ⟨⟨[], none⟩, [], []⟩ last [] _ rfl (Nat.le_refl _)
        (last + fromSecs cli.idleTimeoutSeconds) List.mem_cons_self
      rwa [Representable, add_fromSecs_div] at hfirst
    · intro hfits up down start actions s hrun hnow t hmem
      obtain ⟨timeout, htimeout, hle⟩ := deadlines_near hrun t hmem
      obtain rfl := Option.some.inj htimeout
      exact representable_of_le hnow hle hfits

/-- The defaults can run on Windows, as long as the clock and 300 seconds do not
overflow. -/
theorem accepted_runs_iff_default :
    ∃ config, (Cli.ofUpstream ⟨"proxy".toList, 3128⟩).configure true = .ok config ∧
      NeverPanics config (2 ^ 63 - 1) (2 ^ 32 * second) := by
  obtain ⟨config, hconfig⟩ := configure_ofUpstream ⟨"proxy".toList, 3128⟩
    (show true = true ∨ AuthMode.auto = .none from Or.inl rfl)
  exact ⟨config, hconfig, (accepted_runs_iff hconfig _ _).mpr (by decide)⟩

private def hugePool : Cli :=
  { Cli.ofUpstream ⟨"proxy".toList, 3128⟩ with
    auth := .none, maxConnections := 18446744073709551615 }

private def hugeTimeout : Cli :=
  { Cli.ofUpstream ⟨"proxy".toList, 3128⟩ with
    auth := .none, idleTimeoutSeconds := 9223372036854775808 }

/-- **Accepted settings can panic.**  With the largest number of connections the
semaphore cannot be created; with an idle timeout of `2 ^ 63` seconds the first
deadline of a relay which starts with the clock at zero is not representable. -/
theorem accepted_settings_panic :
    (∃ config, hugePool.configure false = .ok config ∧ ServeState.start config = none) ∧
      ∃ config, hugeTimeout.configure false = .ok config ∧
        ∃ t ∈ (RelayState.start ⟨⟨[], none⟩, [], []⟩ ⟨⟨[], none⟩, [], []⟩
          config.idleTimeout 0).deadlines [], ¬ Representable (2 ^ 63 - 1) t := by
  refine ⟨⟨_, rfl, ?_⟩, ⟨_, rfl, _, List.mem_cons_self, ?_⟩⟩
  · exact if_neg (by decide)
  · unfold Representable
    decide

end Fastpx
