import Fastpx.Auth
import Fastpx.StreamKit.Utf16

/-!
# The native authentication provider

`SspiContext` of `auth.rs`, the Windows implementation of a security context.
The native calls are made visible as a log: every call with the arguments that
matter here and, for `InitializeSecurityContextW`, with what it returned.  What
the calls return is chosen by the environment (`Reply`), so a statement about
all replies is a statement about every behaviour of the operating system.

Request flags, package names and pointers to live stack storage are the same in
every call and are not part of the log.
-/

namespace Fastpx

open StreamKit

/-! ## Native calls -/

/-- `SecHandle`. -/
structure SecHandle where
  lower : UInt64
  upper : UInt64
  deriving DecidableEq, Repr

/-- `SecHandle::default()`. -/
def SecHandle.zero : SecHandle := ⟨0, 0⟩

def secEOk : UInt32 := 0
def secIContinueNeeded : UInt32 := 0x00090312
def secICompleteNeeded : UInt32 := 0x00090313
def secICompleteAndContinue : UInt32 := 0x00090314

/-- The statuses on which the call has given a context. -/
def isAccepted (status : UInt32) : Bool :=
  status == secEOk || status == secIContinueNeeded || status == secICompleteNeeded ||
    status == secICompleteAndContinue

/-- The statuses which ask for `CompleteAuthToken`. -/
def needsCompletion (status : UInt32) : Bool :=
  status == secICompleteNeeded || status == secICompleteAndContinue

/-- The statuses after which the context expects no further challenge. -/
def isFinal (status : UInt32) : Bool :=
  status == secEOk || status == secICompleteNeeded

/-- A call of `InitializeSecurityContextW` and what it returned: a status, a
context and the address of the output buffer, zero for none. -/
structure InitCall where
  credentials : SecHandle
  existing : Option SecHandle
  target : List UInt16
  input : Option Bytes
  status : UInt32
  context : SecHandle
  output : UInt64
  deriving DecidableEq

/-- A native call. -/
inductive NativeCall where
  | acquireCredentials (scheme : AuthScheme)
  | initContext (call : InitCall)
  | completeAuthToken (context : SecHandle)
  | freeContextBuffer (address : UInt64)
  | deleteSecurityContext (context : SecHandle)
  | freeCredentials (credentials : SecHandle)
  deriving DecidableEq

/-- What the native calls of one step return.  `completion` and `freed` are used
only if the corresponding call is made; an error is given by its text. -/
structure Reply where
  status : UInt32
  context : SecHandle
  /-- the address of the output buffer, zero for none -/
  output : UInt64
  /-- the content of the output buffer -/
  token : Bytes
  completion : Except Text Unit
  freed : Except Text Unit

/-! ## The context -/

/-- The fields of `SspiContext`. -/
structure SspiContext where
  credentials : SecHandle
  context : SecHandle
  hasContext : Bool
  complete : Bool
  targetName : List UInt16
  deriving DecidableEq

/-- `str::encode_utf16`. -/
def encodeUtf16 (t : Text) : List UInt16 :=
  t.flatMap utf16Units

/-- The format `{:#010x}`: eight hexadecimal digits. -/
def hexadecimal (n : UInt32) : Text :=
  let digits := Nat.toDigits 16 n.toNat
  "0x".toList ++ List.replicate (8 - digits.length) '0' ++ digits

/-- The result of a step, the context afterwards and the native calls made. -/
structure StepOutcome where
  result : Except AuthError Bytes
  context : SspiContext
  calls : List NativeCall

namespace SspiContext

/-- `SspiContext::new`, for the credentials or the error which the system
returns. -/
def new (scheme : AuthScheme) (targetName : Text) (acquired : Except Text SecHandle) :
    Except AuthError SspiContext × List NativeCall :=
  match acquired with
  | .error message => (.error (.native message), [.acquireCredentials scheme])
  | .ok credentials =>
      (.ok ⟨credentials, .zero, false, false, encodeUtf16 targetName ++ [0]⟩,
        [.acquireCredentials scheme])

/-- The call of `InitializeSecurityContextW` in a step. -/
def initCall (c : SspiContext) (challenge : Option Bytes) (reply : Reply) : InitCall where
  credentials := c.credentials
  existing := if c.hasContext then some c.context else none
  target := c.targetName
  input := challenge
  status := reply.status
  context := reply.context
  output := reply.output

/-- The calls which a step makes after `InitializeSecurityContextW`. -/
def followUp (call : InitCall) : List NativeCall :=
  (if needsCompletion call.status then [.completeAuthToken call.context] else []) ++
    if call.output ≠ 0 then [.freeContextBuffer call.output] else []

/-- `SspiContext::step`. -/
def step (c : SspiContext) (challenge : Option Bytes) (reply : Reply) : StepOutcome :=
  if c.complete then ⟨.error .contextComplete, c, []⟩
  else if challenge.any fun token => 2 ^ 32 ≤ token.length then ⟨.error .tokenTooLarge, c, []⟩
  else
    let call := c.initCall challenge reply
    let calls := .initContext call :: followUp call
    -- the handle is an out-parameter, whatever the status
    let c := { c with
      context := reply.context
      hasContext := c.hasContext || isAccepted reply.status }
    let completionError : Except Text Unit :=
      if needsCompletion reply.status then reply.completion else .ok ()
    -- a buffer of length zero has no bytes to copy
    let token := if reply.output = 0 then [] else reply.token
    let freeResult : Except Text Unit := if reply.output ≠ 0 then reply.freed else .ok ()
    match freeResult, completionError with
    | .error message, _ => ⟨.error (.native message), c, calls⟩
    | .ok (), .error message => ⟨.error (.native message), c, calls⟩
    | .ok (), .ok () =>
        if isAccepted reply.status then
          ⟨.ok token, { c with complete := isFinal reply.status }, calls⟩
        else
          ⟨.error (.native ("InitializeSecurityContextW returned ".toList ++
            hexadecimal reply.status)), c, calls⟩

/-- `SspiContext::drop`. -/
def drop (c : SspiContext) : List NativeCall :=
  (if c.hasContext then [.deleteSecurityContext c.context] else []) ++
    [.freeCredentials c.credentials]

end SspiContext

/-- A sequence of steps. -/
structure SspiRun where
  results : List (Except AuthError Bytes)
  context : SspiContext
  calls : List NativeCall

/-- The steps of a context with these challenges and replies. -/
def SspiContext.run (c : SspiContext) : List (Option Bytes × Reply) → SspiRun
  | [] => ⟨[], c, []⟩
  | (challenge, reply) :: rest =>
      let first := c.step challenge reply
      let later := first.context.run rest
      ⟨first.result :: later.results, later.context, first.calls ++ later.calls⟩

/-! ## Reading the log -/

/-- The calls of `InitializeSecurityContextW`. -/
def initCalls (log : List NativeCall) : List InitCall :=
  log.filterMap fun
    | .initContext call => some call
    | _ => none

/-- The buffers passed to `FreeContextBuffer`. -/
def freedBuffers (log : List NativeCall) : List UInt64 :=
  log.filterMap fun
    | .freeContextBuffer address => some address
    | _ => none

/-- The contexts passed to `CompleteAuthToken`. -/
def completedContexts (log : List NativeCall) : List SecHandle :=
  log.filterMap fun
    | .completeAuthToken context => some context
    | _ => none

/-- The contexts passed to `DeleteSecurityContext`. -/
def deletedContexts (log : List NativeCall) : List SecHandle :=
  log.filterMap fun
    | .deleteSecurityContext context => some context
    | _ => none

/-- The handles passed to `FreeCredentialsHandle`. -/
def freedCredentials (log : List NativeCall) : List SecHandle :=
  log.filterMap fun
    | .freeCredentials credentials => some credentials
    | _ => none

/-- Some call of the log has given a context. -/
def acceptedIn (log : List NativeCall) : Bool :=
  (initCalls log).any fun call => isAccepted call.status

/-- The output buffers which are not null. -/
def outputBuffers (log : List NativeCall) : List UInt64 :=
  ((initCalls log).map InitCall.output).filter (· ≠ 0)

/-- The contexts for which `CompleteAuthToken` is asked. -/
def unfinishedContexts (log : List NativeCall) : List SecHandle :=
  ((initCalls log).filter fun call => needsCompletion call.status).map InitCall.context

/-- Every call is given a context exactly if an earlier one has been accepted;
`seen` says whether one was before the log begins. -/
def PassesContext (seen : Bool) : List NativeCall → Prop
  | [] => True
  | .initContext call :: rest =>
      call.existing.isSome = seen ∧ PassesContext (seen || isAccepted call.status) rest
  | _ :: rest => PassesContext seen rest

theorem acceptedIn_append (log more : List NativeCall) :
    acceptedIn (log ++ more) = (acceptedIn log || acceptedIn more) := by
  simp [acceptedIn, initCalls]

theorem passesContext_append {seen : Bool} {log more : List NativeCall} :
    PassesContext seen (log ++ more) ↔
      PassesContext seen log ∧ PassesContext (seen || acceptedIn log) more := by
  induction log generalizing seen with
  | nil => simp [PassesContext, acceptedIn, initCalls]
  | cons call rest ih =>
      cases call with
      | initContext call =>
          simp [PassesContext, ih, and_assoc, acceptedIn, initCalls, Bool.or_assoc]
      | _ => simpa [PassesContext, acceptedIn, initCalls] using ih

/-- In a split of the log, the call in the middle has a context exactly if one
before it was accepted. -/
theorem PassesContext.existing_iff {log before after : List NativeCall} {call : InitCall}
    (h : PassesContext false log) (hlog : log = before ++ .initContext call :: after) :
    call.existing.isSome ↔ ∃ earlier, .initContext earlier ∈ before ∧
      isAccepted earlier.status = true := by
  subst hlog
  rw [(passesContext_append.mp h).2.1, Bool.false_or, acceptedIn, List.any_eq_true]
  constructor
  · rintro ⟨earlier, hmem, haccepted⟩
    obtain ⟨native, hnative, heq⟩ := List.mem_filterMap.mp hmem
    cases native with
    | initContext call =>
        obtain rfl := Option.some.inj heq
        exact ⟨call, hnative, haccepted⟩
    | _ => cases heq
  · rintro ⟨earlier, hmem, haccepted⟩
    exact ⟨earlier, List.mem_filterMap.mpr ⟨_, hmem, rfl⟩, haccepted⟩

/-! ## What one step does -/

namespace SspiContext

/-- A step makes no native call and changes nothing, or it makes one call of
`InitializeSecurityContextW` with all that follows from it. -/
theorem step_cases (c : SspiContext) (challenge : Option Bytes) (reply : Reply) :
    ((c.step challenge reply).calls = [] ∧ (c.step challenge reply).context = c) ∨
      ((c.step challenge reply).calls =
          .initContext (c.initCall challenge reply) :: followUp (c.initCall challenge reply) ∧
        (c.step challenge reply).context.hasContext =
          (c.hasContext || isAccepted reply.status)) := by
  unfold step
  split
  · exact Or.inl ⟨rfl, rfl⟩
  split
  · exact Or.inl ⟨rfl, rfl⟩
  right
  dsimp only
  split
  · exact ⟨rfl, rfl⟩
  · exact ⟨rfl, rfl⟩
  · split <;> exact ⟨rfl, rfl⟩

theorem step_credentials (c : SspiContext) (challenge : Option Bytes) (reply : Reply) :
    (c.step challenge reply).context.credentials = c.credentials := by
  unfold step
  split
  · rfl
  split
  · rfl
  dsimp only
  split
  · rfl
  · rfl
  · split <;> rfl

theorem run_credentials (c : SspiContext) (rounds : List (Option Bytes × Reply)) :
    (c.run rounds).context.credentials = c.credentials := by
  induction rounds generalizing c with
  | nil => rfl
  | cons round rest ih => exact (ih _).trans (c.step_credentials round.1 round.2)

/-- A step which succeeds with a final status completes the context. -/
theorem complete_of_step {c : SspiContext} {challenge : Option Bytes} {reply : Reply}
    {token : Bytes} (h : (c.step challenge reply).result = .ok token)
    (hfinal : isFinal reply.status = true) : (c.step challenge reply).context.complete = true := by
  revert h
  unfold step
  split
  · intro h
    cases h
  split
  · intro h
    cases h
  dsimp only
  split
  · intro h
    cases h
  · intro h
    cases h
  · split
    · exact fun _ => hfinal
    · intro h
      cases h

theorem run_of_complete {c : SspiContext} (h : c.complete = true)
    (rounds : List (Option Bytes × Reply)) :
    c.run rounds = ⟨List.replicate rounds.length (.error .contextComplete), c, []⟩ := by
  induction rounds with
  | nil => rfl
  | cons round rest ih =>
      have hstep : c.step round.1 round.2 = ⟨.error .contextComplete, c, []⟩ := if_pos h
      rw [run, hstep, ih]
      rfl

end SspiContext

/-! ## The log of a context -/

/-- The flags of the context describe the log. -/
structure Tracks (log : List NativeCall) (c : SspiContext) : Prop where
  accepted : c.hasContext = acceptedIn log
  freed : freedBuffers log = outputBuffers log
  completed : completedContexts log = unfinishedContexts log
  undeleted : deletedContexts log = []
  unfreed : freedCredentials log = []
  passes : PassesContext false log

/-- Logs are tracked one after the other. -/
theorem Tracks.append {log more : List NativeCall} {c c' : SspiContext} (hinv : Tracks log c)
    (haccepted : c'.hasContext = (c.hasContext || acceptedIn more))
    (hfreed : freedBuffers more = outputBuffers more)
    (hcompleted : completedContexts more = unfinishedContexts more)
    (hundeleted : deletedContexts more = []) (hunfreed : freedCredentials more = [])
    (hpasses : PassesContext c.hasContext more) : Tracks (log ++ more) c' where
  accepted := by rw [haccepted, hinv.accepted, acceptedIn_append]
  freed := by
    have hlog := hinv.freed
    simp only [freedBuffers, outputBuffers, initCalls] at hlog hfreed ⊢
    simp only [List.filterMap_append, List.map_append, List.filter_append, hlog, hfreed]
  completed := by
    have hlog := hinv.completed
    simp only [completedContexts, unfinishedContexts, initCalls] at hlog hcompleted ⊢
    simp only [List.filterMap_append, List.map_append, List.filter_append, hlog, hcompleted]
  undeleted := by
    rw [deletedContexts, List.filterMap_append]
    exact List.append_eq_nil_iff.mpr ⟨hinv.undeleted, hundeleted⟩
  unfreed := by
    rw [freedCredentials, List.filterMap_append]
    exact List.append_eq_nil_iff.mpr ⟨hinv.unfreed, hunfreed⟩
  passes := by
    rw [passesContext_append, Bool.false_or, ← hinv.accepted]
    exact ⟨hinv.passes, hpasses⟩

theorem tracks_new {scheme : AuthScheme} {targetName : Text} {acquired : Except Text SecHandle}
    {c : SspiContext} {calls : List NativeCall}
    (h : SspiContext.new scheme targetName acquired = (.ok c, calls)) : Tracks calls c := by
  unfold SspiContext.new at h
  split at h
  · cases (Prod.mk.inj h).1
  · obtain ⟨hc, rfl⟩ := Prod.mk.inj h
    obtain rfl := Except.ok.inj hc
    exact ⟨rfl, rfl, rfl, rfl, rfl, trivial⟩

theorem initCalls_calls (call : InitCall) :
    initCalls (.initContext call :: SspiContext.followUp call) = [call] := by
  unfold SspiContext.followUp
  split <;> split <;> rfl

/-- A step frees the buffer which its call has returned. -/
theorem freedBuffers_calls (call : InitCall) :
    freedBuffers (.initContext call :: SspiContext.followUp call) =
      outputBuffers (.initContext call :: SspiContext.followUp call) := by
  rw [outputBuffers, initCalls_calls]
  unfold SspiContext.followUp
  by_cases houtput : call.output = 0
  · split <;> simp [freedBuffers, houtput]
  · split <;> simp [freedBuffers, houtput]

/-- A step completes the token if its call asks for it. -/
theorem completedContexts_calls (call : InitCall) :
    completedContexts (.initContext call :: SspiContext.followUp call) =
      unfinishedContexts (.initContext call :: SspiContext.followUp call) := by
  rw [unfinishedContexts, initCalls_calls]
  unfold SspiContext.followUp
  by_cases hcompletion : needsCompletion call.status = true
  · rw [if_pos hcompletion]
    split <;> simp [completedContexts, hcompletion]
  · rw [if_neg hcompletion]
    split <;> simp [completedContexts, hcompletion]

theorem passesContext_calls {seen : Bool} {call : InitCall} (h : call.existing.isSome = seen) :
    PassesContext seen (.initContext call :: SspiContext.followUp call) := by
  refine ⟨h, ?_⟩
  unfold SspiContext.followUp
  split <;> split <;> exact trivial

theorem Tracks.step {log : List NativeCall} {c : SspiContext} (hinv : Tracks log c)
    (challenge : Option Bytes) (reply : Reply) :
    Tracks (log ++ (c.step challenge reply).calls) (c.step challenge reply).context := by
  rcases c.step_cases challenge reply with ⟨hcalls, hcontext⟩ | ⟨hcalls, hcontext⟩
  · rw [hcalls, hcontext, List.append_nil]
    exact hinv
  · have hexisting : (c.initCall challenge reply).existing.isSome = c.hasContext := by
      unfold SspiContext.initCall
      cases c.hasContext <;> rfl
    rw [hcalls]
    refine hinv.append ?_ (freedBuffers_calls _) (completedContexts_calls _) ?_ ?_
      (passesContext_calls hexisting)
    · rw [hcontext, acceptedIn, initCalls_calls, List.any_cons, List.any_nil, Bool.or_false]
      rfl
    · unfold SspiContext.followUp
      split <;> split <;> rfl
    · unfold SspiContext.followUp
      split <;> split <;> rfl

theorem Tracks.run {log : List NativeCall} {c : SspiContext} (hinv : Tracks log c)
    (rounds : List (Option Bytes × Reply)) :
    Tracks (log ++ (c.run rounds).calls) (c.run rounds).context := by
  induction rounds generalizing log c with
  | nil => simpa [SspiContext.run] using hinv
  | cons round rest ih =>
      have hlater := ih (hinv.step round.1 round.2)
      rwa [List.append_assoc] at hlater

/-- What the drop of a tracked context adds to its log. -/
theorem Tracks.dropped {log : List NativeCall} {c : SspiContext} (hinv : Tracks log c) :
    freedBuffers (log ++ c.drop) = outputBuffers (log ++ c.drop) ∧
      PassesContext false (log ++ c.drop) ∧
      (deletedContexts (log ++ c.drop)).length = (acceptedIn (log ++ c.drop)).toNat ∧
      freedCredentials (log ++ c.drop) = [c.credentials] ∧
      completedContexts (log ++ c.drop) = unfinishedContexts (log ++ c.drop) := by
  have hinits : initCalls (log ++ c.drop) = initCalls log := by
    unfold SspiContext.drop initCalls
    split <;> simp
  refine ⟨?_, ?_, ?_, ?_, ?_⟩
  · rw [outputBuffers, hinits, ← outputBuffers, ← hinv.freed]
    unfold SspiContext.drop freedBuffers
    split <;> simp
  · rw [passesContext_append]
    refine ⟨hinv.passes, ?_⟩
    unfold SspiContext.drop
    split <;> exact trivial
  · rw [acceptedIn, hinits, ← acceptedIn, ← hinv.accepted, deletedContexts, List.filterMap_append,
      ← deletedContexts, hinv.undeleted, List.nil_append]
    unfold SspiContext.drop
    cases c.hasContext <;> rfl
  · rw [freedCredentials, List.filterMap_append, ← freedCredentials, hinv.unfreed,
      List.nil_append]
    unfold SspiContext.drop
    split <;> rfl
  · rw [unfinishedContexts, hinits, ← unfinishedContexts, ← hinv.completed]
    unfold SspiContext.drop completedContexts
    split <;> simp

/-- **The handles of a context are used and released correctly.**  A context is
created, makes any steps with any replies of the system, and is dropped:

* every output buffer which is not null is freed, once and in order;
* a call is given a context exactly if an earlier one was accepted;
* the context is deleted once if one was accepted, and never otherwise;
* the credentials are freed once;
* `CompleteAuthToken` is called for the statuses which ask for it, and for no
  others;
* after a step which succeeded with a final status, every step is refused
  without a native call. -/
theorem sspi_lifecycle {scheme : AuthScheme} {targetName : Text}
    {acquired : Except Text SecHandle} {c : SspiContext} {opening log : List NativeCall}
    (hnew : SspiContext.new scheme targetName acquired = (.ok c, opening))
    (rounds : List (Option Bytes × Reply))
    (hlog : log = opening ++ (c.run rounds).calls ++ (c.run rounds).context.drop) :
    freedBuffers log = outputBuffers log ∧
    (∀ before call after, log = before ++ .initContext call :: after →
      (call.existing.isSome ↔ ∃ earlier, .initContext earlier ∈ before ∧
        isAccepted earlier.status = true)) ∧
    (deletedContexts log).length = (acceptedIn log).toNat ∧
    freedCredentials log = [c.credentials] ∧
    completedContexts log = unfinishedContexts log ∧
    ∀ before challenge reply after token, rounds = before ++ (challenge, reply) :: after →
      ((c.run before).context.step challenge reply).result = .ok token →
      reply.status = secEOk ∨ reply.status = secICompleteNeeded →
      (((c.run before).context.step challenge reply).context.run after).results =
          List.replicate after.length (.error .contextComplete) ∧
        (((c.run before).context.step challenge reply).context.run after).calls = [] := by
  obtain ⟨hfreed, hpasses, hdeleted, hcredentials, hcompleted⟩ :=
    ((tracks_new hnew).run rounds).dropped
  rw [← hlog] at hfreed hpasses hdeleted hcredentials hcompleted
  rw [c.run_credentials] at hcredentials
  refine ⟨hfreed, fun before call after => hpasses.existing_iff, hdeleted, hcredentials,
    hcompleted, ?_⟩
  intro before challenge reply after token _ hok hstatus
  have hfinal : isFinal reply.status = true := by
    rcases hstatus with h | h <;> rw [h] <;> decide
  rw [SspiContext.run_of_complete (SspiContext.complete_of_step hok hfinal)]
  exact ⟨rfl, rfl⟩

/-! NTLM in two steps: a token and `SEC_I_CONTINUE_NEEDED`, then a token and
`SEC_E_OK`. -/

private def twoRounds : List (Option Bytes × Reply) :=
  [(none, ⟨secIContinueNeeded, ⟨1, 2⟩, 4096, [1], .ok (), .ok ()⟩),
    (some [7], ⟨secEOk, ⟨1, 2⟩, 8192, [2], .ok (), .ok ()⟩)]

private def ntlmContext : SspiContext :=
  ⟨⟨5, 6⟩, .zero, false, false, encodeUtf16 "HTTP/proxy".toList ++ [0]⟩

private theorem new_ntlmContext : SspiContext.new .ntlm "HTTP/proxy".toList (.ok ⟨5, 6⟩) =
    (.ok ntlmContext, [.acquireCredentials .ntlm]) := rfl

/-- Both buffers of the sample are freed, and its context is deleted. -/
theorem sspi_lifecycle_two_rounds :
    ∃ c opening log, SspiContext.new .ntlm "HTTP/proxy".toList (.ok ⟨5, 6⟩) = (.ok c, opening) ∧
      log = opening ++ (c.run twoRounds).calls ++ (c.run twoRounds).context.drop ∧
      freedBuffers log = [4096, 8192] ∧ deletedContexts log = [⟨1, 2⟩] ∧
      freedCredentials log = [⟨5, 6⟩] := by
  have hcontract := sspi_lifecycle new_ntlmContext twoRounds rfl
  exact ⟨_, _, _, new_ntlmContext, rfl, hcontract.1.trans (by decide), by decide,
    hcontract.2.2.2.1⟩

/-! ## As an authentication provider -/

/-- `NativeAuthFactory` on Windows.  A context carries the replies which the
system is going to give; without one, the native call fails. -/
def nativeFactory (acquired : Except Text SecHandle) (replies : List Reply) (failure : Reply) :
    AuthFactory (SspiContext × List Reply) where
  create scheme targetName :=
    match (SspiContext.new scheme targetName acquired).1 with
    | .error e => .error e
    | .ok context => .ok (context, replies)
  step context challenge :=
    let outcome := context.1.step challenge (context.2.head?.getD failure)
    (outcome.result, outcome.context, context.2.tail)

/-- What a context of a provider answers to these challenges. -/
def AuthFactory.results {κ : Type} (factory : AuthFactory κ) (context : κ) :
    List (Option Bytes) → List (Except AuthError Bytes)
  | [] => []
  | challenge :: rest =>
      let (result, context) := factory.step context challenge
      result :: factory.results context rest

/-- A context of the provider goes through the steps of an `SspiContext`. -/
theorem nativeFactory_results (acquired : Except Text SecHandle) (first : List Reply)
    (failure : Reply) (c : SspiContext) {replies : List Reply} {challenges : List (Option Bytes)}
    (h : challenges.length ≤ replies.length) :
    (nativeFactory acquired first failure).results (c, replies) challenges =
      (c.run (challenges.zip replies)).results := by
  induction challenges generalizing c replies with
  | nil => rfl
  | cons challenge rest ih =>
      cases replies with
      | nil => cases h
      | cons reply replies =>
          have hlater := ih (c.step challenge reply).context (Nat.le_of_succ_le_succ h)
          simp only [AuthFactory.results, nativeFactory, List.head?_cons, Option.getD_some,
            List.tail_cons] at hlater ⊢
          rw [hlater]
          rfl

end Fastpx
