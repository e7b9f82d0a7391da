import Fastpx.Server.Handshake
import Fastpx.Sspi
import Fastpx.StreamKit.Utf16

/-!
# What the native calls are given

The arguments of the native calls over the whole life of a security context.  A
call of `InitializeSecurityContextW` writes the handle of the context into a
field, whatever it returns, and the next call and the drop read it from there:
`sspi_handles_threaded` says which handle each of them gets.  The target name is
given as a pointer to 16-bit units that end with a zero; `native_target_read` says
what the system reads there.
-/

namespace Fastpx

open StreamKit Config Server

/-! ## Handles -/

namespace SspiContext

/-- The handle which the next call gets, if it gets one. -/
def handle (c : SspiContext) : Option SecHandle := if c.hasContext then some c.context else none

end SspiContext

/-- The handle which a call leaves: its own if one was accepted by now. -/
def afterCall (handle : Option SecHandle) (call : InitCall) : Option SecHandle :=
  if handle.isSome || isAccepted call.status then some call.context else none

/-- Each call gets the handle which the calls before it have left. -/
def Threaded (handle : Option SecHandle) : List InitCall → Prop
  | [] => True
  | call :: rest => call.existing = handle ∧ Threaded (afterCall handle call) rest

theorem Threaded.existing_eq {handle : Option SecHandle} {before after : List InitCall}
    {call : InitCall} (h : Threaded handle (before ++ call :: after)) :
    call.existing = before.foldl afterCall handle := by
  induction before generalizing handle with
  | nil => exact h.1
  | cons first rest ih => exact ih h.2

theorem initCalls_append (log more : List NativeCall) :
    initCalls (log ++ more) = initCalls log ++ initCalls more :=
  List.filterMap_append

namespace SspiContext

/-- A step makes one call of `InitializeSecurityContextW` and keeps what it
wrote, or it makes none and changes nothing. -/
theorem step_handle (c : SspiContext) (challenge : Option Bytes) (reply : Reply) :
    (initCalls (c.step challenge reply).calls = [] ∧ (c.step challenge reply).context = c) ∨
      (initCalls (c.step challenge reply).calls = [c.initCall challenge reply] ∧
        (c.step challenge reply).context.handle = afterCall c.handle (c.initCall challenge reply) ∧
        (c.step challenge reply).context.credentials = c.credentials ∧
        (c.step challenge reply).context.targetName = c.targetName) := by
  have hleft : ∀ complete, handle ⟨c.credentials, reply.context,
      c.hasContext || isAccepted reply.status, complete, c.targetName⟩ =
        afterCall c.handle (c.initCall challenge reply) := by
    intro complete
    have hseen : c.handle.isSome = c.hasContext := by
      unfold handle
      cases c.hasContext <;> rfl
    unfold afterCall
    rw [hseen]
    rfl
  unfold step
  split
  · exact Or.inl ⟨rfl, rfl⟩
  split
  · exact Or.inl ⟨rfl, rfl⟩
  right
  refine ⟨?_, ?_⟩
  · dsimp only
    split
    · exact initCalls_calls _
    · exact initCalls_calls _
    · split <;> exact initCalls_calls _
  · dsimp only
    split
    · exact ⟨hleft _, rfl, rfl⟩
    · exact ⟨hleft _, rfl, rfl⟩
    · split <;> exact ⟨hleft _, rfl, rfl⟩

/-- The calls of a sequence of steps. -/
theorem run_threaded (c : SspiContext) (rounds : List (Option Bytes × Reply)) :
    Threaded c.handle (initCalls (c.run rounds).calls) ∧
      (c.run rounds).context.handle =
        (initCalls (c.run rounds).calls).foldl afterCall c.handle ∧
      ∀ call ∈ initCalls (c.run rounds).calls,
        call.credentials = c.credentials ∧ call.target = c.targetName := by
  induction rounds generalizing c with
  | nil => exact ⟨trivial, rfl, fun call hmem => absurd hmem List.not_mem_nil⟩
  | cons round rest ih =>
      obtain ⟨hthreaded, hhandle, hsame⟩ := ih (c.step round.1 round.2).context
      simp only [run, initCalls_append]
      rcases c.step_handle round.1 round.2 with ⟨hcalls, hcontext⟩ | ⟨hcalls, hleft, hcred, htarget⟩
      · rw [hcalls, List.nil_append]
        rw [hcontext] at hthreaded hhandle hsame ⊢
        exact ⟨hthreaded, hhandle, hsame⟩
      · rw [hcalls, List.singleton_append]
        rw [hleft] at hthreaded hhandle
        rw [hcred, htarget] at hsame
        refine ⟨⟨rfl, hthreaded⟩, hhandle, ?_⟩
        intro call hmem
        rcases List.mem_cons.mp hmem with rfl | hlater
        · exact ⟨rfl, rfl⟩
        · exact hsame call hlater

end SspiContext

/-- **Handles are passed on.**  In the life of a context, with any challenges and
any replies of the system: every call of `InitializeSecurityContextW` is given
the credentials and the target of the context, and the handle which the call
before it has written if one was accepted by then, and none otherwise.  The drop
deletes the handle which the last call has written. -/
theorem sspi_handles_threaded {scheme : AuthScheme} {targetName : Text}
    {acquired : Except Text SecHandle} {c : SspiContext} {opening : List NativeCall}
    (hnew : SspiContext.new scheme targetName acquired = (.ok c, opening))
    (rounds : List (Option Bytes × Reply)) :
    let calls := initCalls (c.run rounds).calls
    (∀ call ∈ calls, call.credentials = c.credentials ∧ call.target = c.targetName) ∧
    (∀ before call after, calls = before ++ call :: after →
      call.existing = before.foldl afterCall none) ∧
    deletedContexts (c.run rounds).context.drop = (calls.foldl afterCall none).toList := by
  have hfresh : c.handle = none := by
    unfold SspiContext.new at hnew
    split at hnew
    · cases (Prod.mk.inj hnew).1
    · rw [← Except.ok.inj (Prod.mk.inj hnew).1]
      rfl
  obtain ⟨hthreaded, hhandle, hsame⟩ := c.run_threaded rounds
  rw [hfresh] at hthreaded hhandle
  refine ⟨hsame, ?_, ?_⟩
  · intro before call after hcalls
    rw [hcalls] at hthreaded
    exact hthreaded.existing_eq
  · rw [← hhandle]
    unfold SspiContext.drop SspiContext.handle
    cases (c.run rounds).context.hasContext <;> rfl

/-! Two steps, of which the second fails and overwrites the handle. -/

private def overwritingRounds : List (Option Bytes × Reply) :=
  [(none, ⟨secIContinueNeeded, ⟨3, 4⟩, 0, [], .ok (), .ok ()⟩),
    (some [7], ⟨0x80090308, ⟨8, 9⟩, 0, [], .ok (), .ok ()⟩)]

private def overwrittenContext : SspiContext :=
  ⟨⟨5, 6⟩, .zero, false, false, encodeUtf16 "HTTP/up".toList ++ [0]⟩

private theorem new_overwrittenContext :
    SspiContext.new .negotiate "HTTP/up".toList (.ok ⟨5, 6⟩) =
      (.ok overwrittenContext, [.acquireCredentials .negotiate]) := rfl

/-- The second call gets the handle of the first, and the drop that of the
second. -/
theorem sspi_handles_threaded_sample :
    (initCalls (overwrittenContext.run overwritingRounds).calls).map InitCall.existing =
        [none, some ⟨3, 4⟩] ∧
      deletedContexts (overwrittenContext.run overwritingRounds).context.drop = [⟨8, 9⟩] :=
  ⟨by decide, (sspi_handles_threaded new_overwrittenContext overwritingRounds).2.2⟩

/-! ## The target name -/

/-- What the system reads behind the pointer to a target name. -/
def readTarget (units : List UInt16) : Option Text := fromUtf16 (untilZero units)

theorem readTarget_encodeUtf16 (name : Text) :
    readTarget (encodeUtf16 name ++ [0]) = some (name.takeWhile (· ≠ nul)) :=
  fromUtf16_terminated name

/-- **The system reads the name of the upstream.**  Every native call in the life
of a context for an upstream proxy is given a target name which the system reads
as `HTTP/` and the host up to its first NUL character; it is the whole name if
and only if there is none in the host. -/
theorem native_target_read {scheme : AuthScheme} {upstream : Endpoint}
    {acquired : Except Text SecHandle} {c : SspiContext} {opening : List NativeCall}
    (hnew : SspiContext.new scheme (targetName upstream) acquired = (.ok c, opening))
    (rounds : List (Option Bytes × Reply)) :
    ∀ call ∈ initCalls (c.run rounds).calls,
      readTarget call.target = some ("HTTP/".toList ++ upstream.host.takeWhile (· ≠ nul)) ∧
        (readTarget call.target = some (targetName upstream) ↔ nul ∉ upstream.host) := by
  have htarget : c.targetName = encodeUtf16 (targetName upstream) ++ [0] := by
    unfold SspiContext.new at hnew
    split at hnew
    · cases (Prod.mk.inj hnew).1
    · rw [← Except.ok.inj (Prod.mk.inj hnew).1]
  have hname : (targetName upstream).takeWhile (· ≠ nul) =
      "HTTP/".toList ++ upstream.host.takeWhile (· ≠ nul) :=
    List.takeWhile_append_of_pos (by decide)
  intro call hmem
  have hread : readTarget call.target =
      some ("HTTP/".toList ++ upstream.host.takeWhile (· ≠ nul)) := by
    rw [((c.run_threaded rounds).2.2 call hmem).2, htarget, readTarget_encodeUtf16, hname]
  refine ⟨hread, ?_⟩
  rw [hread, Option.some_inj, targetName, List.append_cancel_left_eq, List.takeWhile_eq_self_iff]
  constructor
  · intro hall hnul
    simpa using hall nul hnul
  · intro hnot character hcharacter
    rw [decide_eq_true_eq]
    rintro rfl
    exact hnot hcharacter

/-- Both calls of the sample are for `HTTP/up`. -/
theorem native_target_read_sample :
    (initCalls (overwrittenContext.run overwritingRounds).calls).map
      (fun call => readTarget call.target) = List.replicate 2 (some "HTTP/up".toList) := by
  have hnew : SspiContext.new .negotiate (targetName ⟨"up".toList, 3128⟩) (.ok ⟨5, 6⟩) =
      (.ok overwrittenContext, [.acquireCredentials .negotiate]) := new_overwrittenContext
  refine List.eq_replicate_iff.mpr ⟨rfl, ?_⟩
  intro name hmem
  obtain ⟨call, hcall, rfl⟩ := List.mem_map.mp hmem
  exact (native_target_read hnew overwritingRounds call hcall).1

end Fastpx
