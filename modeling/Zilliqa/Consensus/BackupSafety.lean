import Zilliqa.Consensus.Backup

/-!
# `Consensus.BackupSafety` — what a backup's replies give away

A backup's Schnorr response is `secret - challenge · key`, so two responses from one commit secret to
two challenges give away its private key. Nothing in the secrets prevents that: the state machine
does. `ProcessMessageAnnounce` and the first-round `ProcessMessageCollectiveSigCore` draw new secrets
and commit to them, a challenge is answered only in `COMMIT_DONE` or `FINALCOMMIT_DONE`, and
answering leaves those states. The invariant `SecretsInv` states this over the messages sent so far,
and `commitSecret_single_use` concludes it for every run from the constructor.

The second-round message a FINALRESPONSE co-signs is settled the same way, but only until the next
CONSENSUSFAILURE: that message puts the backup back to `INITIAL` from any state, and the whole
consensus runs again under the same consensus id. Without one, a backup sends at most one
FINALRESPONSE (`finalResponse_at_most_once`); with one, a leader that proposes a second valid block
gets final responses for two blocks (`final_responses_for_two_blocks`).

## Contents
- `Sent.secretsUsed`, `Sent.isFinalResponse`.
- `Answered`, `SecretsInv`, `SecretsInv.step`, `commitSecret_single_use`.
- `FinalInv`, `finalInv_step`, `finalResponse_at_most_once`, and the two-block run.
-/

namespace Zilliqa.Consensus

namespace Sent

variable {Point Chal : Type}

/-- The secrets a sent message computes its responses with. -/
def secretsUsed : Sent Point Chal → List ℕ
  | .response _ _ responses => responses.map (·.secret)
  | _ => []

/-- Whether a sent message is a FINALRESPONSE. -/
def isFinalResponse : Sent Point Chal → Bool
  | .response .finalResponse _ _ => true
  | _ => false

@[simp] theorem isFinalResponse_response (type : ConsensusMessageType) (cosigning : Bytes)
    (responses : List (Response Point Chal)) :
    (Sent.response type cosigning responses).isFinalResponse = decide (type = .finalResponse) := by
  cases type <;> rfl

end Sent

namespace ConsensusBackup

variable {Point Chal Sig : Type} [DecidableEq Chal] (P : Primitives Point Chal Sig)

/-! ## Every commit secret answers at most one challenge -/

/-- A response message `m` is backed by the messages `pre` sent before it: a commit sent while the
    same message was to be co-signed begins with the secrets of its responses, and each response
    answers the challenge of that message. -/
def Answered (pre : List (Sent Point Chal)) (m : Sent Point Chal) : Prop :=
  ∀ type cosigning responses, m = .response type cosigning responses →
    (∃ ctype secrets, Sent.commit ctype secrets cosigning ∈ pre ∧
      responses.map (·.secret) <+: secrets) ∧
    ∀ r ∈ responses, r.answered.challenge =
      P.getChallenge cosigning r.answered.aggregatedCommit r.answered.aggregatedKey

/-- The invariant of a backup `b` and of the messages `sent` before it. -/
structure SecretsInv (b : ConsensusBackup Sig) (sent : List (Sent Point Chal)) : Prop where
  /-- No secret answers twice. -/
  used_nodup : (sent.flatMap Sent.secretsUsed).Nodup
  used_lt : ∀ s ∈ sent.flatMap Sent.secretsUsed, s < b.numSecrets
  current_nodup : b.commitSecrets.Nodup
  current_lt : ∀ s ∈ b.commitSecrets, s < b.numSecrets
  /-- Where a challenge is accepted, the current secrets are unused and were committed while the
      current message was to be co-signed. -/
  committed : b.state = .commitDone ∨ b.state = .finalCommitDone →
    (∀ s ∈ b.commitSecrets, s ∉ sent.flatMap Sent.secretsUsed) ∧
      ∃ type, Sent.commit type b.commitSecrets b.messageToCosign ∈ sent
  answered : Mealy.Preceded (Answered P) sent

omit [DecidableEq Chal] in
theorem secretsInv_init (numOfSubsets : ℕ) :
    SecretsInv P (init numOfSubsets : ConsensusBackup Sig) ([] : List (Sent Point Chal)) where
  used_nodup := List.nodup_nil
  used_lt := by simp
  current_nodup := List.nodup_nil
  current_lt := by simp [init]
  committed := by simp [init]
  answered := Mealy.preceded_nil _

omit [DecidableEq Chal] in
/-- A message other than a response is backed by anything. -/
theorem answered_of_ne_response {pre : List (Sent Point Chal)} {m : Sent Point Chal}
    (hm : ∀ type cosigning responses, m ≠ .response type cosigning responses) :
    Answered P pre m :=
  fun type cosigning responses h => absurd h (hm type cosigning responses)

/-- **The step rule.** Every message keeps `SecretsInv`. -/
theorem SecretsInv.step {b : ConsensusBackup Sig} {sent : List (Sent Point Chal)}
    (h : SecretsInv P b sent) (msg : Incoming Point Chal Sig) :
    SecretsInv P (step P b msg).1 (sent ++ (step P b msg).2) := by
  have hout := outcome_processMessage P b msg
  simp only [ConsensusBackup.step]
  generalize (processMessage P b msg).2.1 = b' at hout ⊢
  generalize (processMessage P b msg).2.2 = o at hout ⊢
  cases hout with
  | quiet secrets num fallback =>
    simp only [Option.toList_none, List.append_nil]
    refine ⟨h.used_nodup, num ▸ h.used_lt, secrets ▸ h.current_nodup,
      secrets ▸ num ▸ h.current_lt, ?_, h.answered⟩
    intro hstate
    -- a quiet message that leaves the backup ready for a challenge left everything as it was
    rcases fallback with ⟨hs, hm⟩ | hs | hs | hs
    · rw [secrets, hm]
      exact h.committed (hs ▸ hstate)
    all_goals rw [hs] at hstate; simp at hstate
  | commitFailure secrets num error =>
    rename_i b' errorMsg
    have hused : (sent ++ [Sent.commitFailure errorMsg]).flatMap Sent.secretsUsed =
        sent.flatMap Sent.secretsUsed := by simp [Sent.secretsUsed]
    simp only [Option.toList_some]
    refine ⟨hused ▸ h.used_nodup, hused ▸ num ▸ h.used_lt, secrets ▸ h.current_nodup,
      secrets ▸ num ▸ h.current_lt, ?_, ?_⟩
    · intro hstate
      rw [error] at hstate
      simp at hstate
    · exact Mealy.preceded_append_singleton h.answered
        (answered_of_ne_response P (fun _ _ _ h => by cases h))
  | commit draw num round =>
    rename_i b' type
    have hused : (sent ++ [Sent.commit type b'.commitSecrets b'.messageToCosign]).flatMap
        Sent.secretsUsed = sent.flatMap Sent.secretsUsed := by simp [Sent.secretsUsed]
    -- the new secrets are numbered from `b.numSecrets` on, past every secret used so far
    have hnew : ∀ s ∈ b'.commitSecrets, b.numSecrets ≤ s ∧ s < b'.numSecrets := by
      intro s hs
      rw [draw, List.mem_range'_1] at hs
      omega
    simp only [Option.toList_some]
    refine ⟨hused ▸ h.used_nodup, ?_, draw ▸ List.nodup_range' .., fun s hs => (hnew s hs).2,
      ?_, ?_⟩
    · rw [hused]
      intro s hs
      have := h.used_lt s hs
      omega
    · intro _
      refine ⟨?_, type, by simp⟩
      intro s hs hused'
      have := h.used_lt s (hused ▸ hused')
      have := (hnew s hs).1
      omega
    · exact Mealy.preceded_append_singleton h.answered
        (answered_of_ne_response P (fun _ _ _ h => by cases h))
  | response secrets num round order answers =>
    rename_i b' type responses
    have hready : b.state = .commitDone ∨ b.state = .finalCommitDone := by
      rcases round with ⟨hs, -⟩ | ⟨hs, -⟩
      · exact .inl hs
      · exact .inr hs
    obtain ⟨hfresh, ctype, hcommit⟩ := h.committed hready
    have hsub : ∀ s ∈ responses.map (·.secret), s ∈ b.commitSecrets :=
      fun s hs => order.sublist.subset hs
    have hused : (sent ++ [Sent.response type b.messageToCosign responses]).flatMap
        Sent.secretsUsed = sent.flatMap Sent.secretsUsed ++ responses.map (·.secret) := by
      simp [Sent.secretsUsed]
    simp only [Option.toList_some]
    refine ⟨?_, ?_, secrets ▸ h.current_nodup, secrets ▸ num ▸ h.current_lt, ?_, ?_⟩
    · -- the responses use unused secrets, each once
      rw [hused, List.nodup_append]
      refine ⟨h.used_nodup, h.current_nodup.sublist order.sublist, ?_⟩
      rintro s hs s' hs' rfl
      exact hfresh s (hsub s hs') hs
    · rw [hused, num]
      intro s hs
      rcases List.mem_append.1 hs with hs | hs
      · exact h.used_lt s hs
      · exact h.current_lt s (hsub s hs)
    · -- after answering, the backup no longer accepts a challenge
      intro hstate
      rcases round with ⟨-, -, hs⟩ | ⟨-, -, hs⟩ <;> rw [hs] at hstate <;> simp at hstate
    · refine Mealy.preceded_append_singleton h.answered ?_
      intro type' cosigning responses' hm
      simp only [Sent.response.injEq] at hm
      obtain ⟨-, rfl, rfl⟩ := hm
      exact ⟨⟨ctype, b.commitSecrets, hcommit, order⟩, answers⟩

/-- **Single use of commit secrets.** Whatever messages a backup receives, no commit secret is used
    in two responses it sends, and each response message answers, subset by subset, the challenge of
    the message that was to be co-signed when its secrets were committed. -/
theorem commitSecret_single_use (numOfSubsets : ℕ) (msgs : List (Incoming Point Chal Sig)) :
    let sent := (Mealy.run (step P) (init numOfSubsets) msgs).2
    (sent.flatMap Sent.secretsUsed).Nodup ∧
    ∀ pre type cosigning responses post,
      sent = pre ++ .response type cosigning responses :: post →
      (∃ ctype secrets, Sent.commit ctype secrets cosigning ∈ pre ∧
        responses.map (·.secret) <+: secrets) ∧
      ∀ r ∈ responses, r.answered.challenge =
        P.getChallenge cosigning r.answered.aggregatedCommit r.answered.aggregatedKey := by
  intro sent
  have h := Mealy.run_inv (SecretsInv P) (fun b sent msg (_ : True) h => h.step P msg) msgs
    (init numOfSubsets) [] (fun _ _ => trivial) (secretsInv_init P numOfSubsets)
  rw [List.nil_append] at h
  exact ⟨h.used_nodup, fun pre type cosigning responses post heq =>
    h.answered pre _ post heq type cosigning responses rfl⟩

/-! ## One final response per consensus, until CONSENSUSFAILURE -/

/-- At most one FINALRESPONSE was sent, and once it was, the backup is settled. -/
def FinalInv (b : ConsensusBackup Sig) (sent : List (Sent Point Chal)) : Prop :=
  (sent.filter Sent.isFinalResponse).length ≤ 1 ∧
    (sent.filter Sent.isFinalResponse ≠ [] → Settled b.state)

theorem finalInv_step {b : ConsensusBackup Sig} {sent : List (Sent Point Chal)}
    (msg : Incoming Point Chal Sig) (hmsg : msg ≠ .consensusFailure) (h : FinalInv b sent) :
    FinalInv (step P b msg).1 (sent ++ (step P b msg).2) := by
  by_cases hsettled : Settled b.state
  · -- a settled backup sends nothing and stays settled
    obtain ⟨hs', hnone⟩ := settled_processMessage P b msg hmsg hsettled
    simp only [ConsensusBackup.step, hnone, Option.toList_none, List.append_nil]
    exact ⟨h.1, fun _ => hs'⟩
  · -- otherwise no final response was sent yet, and this message sends at most one
    have hnone : sent.filter Sent.isFinalResponse = [] := by
      by_contra hne
      exact hsettled (h.2 hne)
    have hout := outcome_processMessage P b msg
    simp only [ConsensusBackup.step]
    generalize (processMessage P b msg).2.1 = b' at hout ⊢
    generalize (processMessage P b msg).2.2 = o at hout ⊢
    cases hout with
    | response secrets num round order answers =>
      rcases round with ⟨-, rfl, -⟩ | ⟨-, rfl, hs'⟩
      · simp [FinalInv, List.filter_append, hnone, Sent.isFinalResponse]
      · simp [FinalInv, List.filter_append, hnone, Settled, hs']
    | _ => simp [FinalInv, List.filter_append, hnone, Sent.isFinalResponse]

/-- **One final response per consensus.** From any state, a backup that receives no
    CONSENSUSFAILURE sends at most one FINALRESPONSE. -/
theorem finalResponse_at_most_once (b : ConsensusBackup Sig)
    (msgs : List (Incoming Point Chal Sig)) (hmsgs : ∀ msg ∈ msgs, msg ≠ .consensusFailure) :
    ((Mealy.run (step P) b msgs).2.filter Sent.isFinalResponse).length ≤ 1 := by
  have h := Mealy.run_inv FinalInv (fun b sent msg hmsg h => finalInv_step P msg hmsg h) msgs b []
    hmsgs ⟨by simp, by simp⟩
  rw [List.nil_append] at h
  exact h.1

/-! ## Two blocks under one consensus id -/

/-- Primitives under which every announcement is valid and is itself the block content to co-sign,
    every collective signature verifies, and a challenge is the message it is computed from. -/
def acceptAll : Primitives Unit Bytes Unit where
  msgContentValidator announcement := ⟨true, [], some announcement⟩
  prePrepMsgContentValidator := none
  commitInitialized _ := true
  challengeInitialized _ := true
  getChallenge messageToCosign _ _ := messageToCosign
  multiSigVerify _ _ _ := true
  serializeSig _ := []

/-- The consensus on the block `[1]` up to the final response, a CONSENSUSFAILURE, and the same
    consensus again on the block `[2]`. The second-round message is the block followed by the
    (here empty) signature and the empty response map. -/
def twoBlocks : List (Incoming Unit Bytes Unit) :=
  [.announce [1], .collectiveSig [] () [] true, .finalChallenge [⟨(), (), [1, 0, 0]⟩],
   .consensusFailure,
   .announce [2], .collectiveSig [] () [] true, .finalChallenge [⟨(), (), [2, 0, 0]⟩]]

theorem final_responses_for_two_blocks :
    (Mealy.run (step acceptAll) (init 1) twoBlocks).2.filter Sent.isFinalResponse =
      [.response .finalResponse [1, 0, 0] [⟨1, ⟨(), (), [1, 0, 0]⟩⟩],
       .response .finalResponse [2, 0, 0] [⟨3, ⟨(), (), [2, 0, 0]⟩⟩]] := by
  decide

/-- The consensus on the block `[1]` alone, up to its final challenge. -/
def oneBlock : List (Incoming Unit Bytes Unit) :=
  [.announce [1], .collectiveSig [] () [] true, .finalChallenge [⟨(), (), [1, 0, 0]⟩]]

/-- That consensus sends its one final response. -/
theorem finalResponse_at_most_once_oneBlock :
    (∀ msg ∈ oneBlock, msg ≠ .consensusFailure) ∧
      ((Mealy.run (step acceptAll) (init 1) oneBlock).2.filter Sent.isFinalResponse).length ≤ 1 := by
  have hmsgs : ∀ msg ∈ oneBlock, msg ≠ .consensusFailure := by simp [oneBlock]
  exact ⟨hmsgs, finalResponse_at_most_once acceptAll (init 1) oneBlock hmsgs⟩

end ConsensusBackup

end Zilliqa.Consensus
