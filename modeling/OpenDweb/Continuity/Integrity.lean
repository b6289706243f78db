import OpenDweb.Continuity.ExchangeRuns

/-!
# OpenDweb — what the reader gets

The bytes `recv` returned, against the chunks the sender's journal accepted, in every run of
sends, reads, deliveries, channel deaths and RESUME rounds.

* **`exchange_integrity`** — a prefix of the string, with the unread rest in the journal unless
  the stream ended in error, and all of it when `recv` ended with FIN.
* **`abort_frees_unread`** — a send that fails aborts its stream, which gives up what was not
  read.
-/

namespace Dweb

open Std (ExtTreeMap)

/-- **Integrity of a stream.** `c.settled` says that `recv` did not look at the stream between
the pump's two critical sections. -/
theorem exchange_integrity {L : JournalLimits} {s : Exchange}
    (h : (exchangeMachine L).ReachableUnder Exchange.Fits s) (x : Side) (sid : Nat) :
    (s.ends x.peer).received sid <+: ((s.ends x).sent sid).flatten
      ∧ (isErrorTerm ((s.ends x).ctx sid).term = false → ∀ (off : Nat) (p : Bytes),
          IsChunk ((s.ends x).sent sid) off p → p ≠ [] →
            off + p.length ≤ ((s.ends x.peer).received sid).length
              ∨ ((s.ends x).ctx sid).journal.segments[off]? = some p)
      ∧ ∀ c ∈ (s.ends x.peer).ended, c.streamId = sid → c.settled = true → c.term = some .fin →
          (s.ends x.peer).received sid = ((s.ends x).sent sid).flatten
            ∧ ((s.ends x).ctx sid).Frozen := by
  have hinv := exchangeInv_of_reachable h
  have hsend := ((hinv.ends x).streams sid).send
  have hpeer := hinv.ends x.peer
  rw [x.peer_peer] at hpeer
  have hread : (s.ends x.peer).received sid <+: ((s.ends x).sent sid).flatten :=
    (List.prefix_append _ _).trans (hpeer.streams sid).recv.inOrder
  refine ⟨hread, fun hterm off p hp hne => hsend.kept hterm off p hp hne,
    fun c hc hsid hsettled hterm => ?_⟩
  obtain ⟨hfrozen, hle⟩ := hpeer.ended c hc hsettled hterm
  rw [hsid] at hfrozen hle
  exact ⟨hread.eq_of_length (Nat.le_antisymm hread.length_le hle), hfrozen⟩

/-! ## Runs -/

def freshEnds : Exchange := .fresh (.ofNat 16 1) (.ofNat 16 2) .default

theorem init_freshEnds : (exchangeMachine .default).init freshEnds := ⟨_, _, rfl⟩

theorem exchange_integrity_resumed :
    ∃ s, (exchangeMachine .default).ReachableUnder Exchange.Fits s
      ∧ (s.ends .provider).ended = [⟨1, some .fin, true⟩]
      ∧ (s.ends .client).sent 1 = [[97]]
      ∧ (s.ends .provider).received 1 = ((s.ends .client).sent 1).flatten := by
  have hrun : ((exchangeMachine .default).runUnder Exchange.Fits freshEnds
      [.act .client 0 (.openStream 1), .act .provider 0 (.openStream 1),
       .act .client 0 (.sendData 1 [97] true), .die 0,
       .attempt, .trim 1, .act .provider 1 .install, .act .client 1 .install,
       .act .client 1 (.startReplay [1]), .act .client 1 (.replayNext 0 [1]),
       .deliver .client 1, .act .provider 1 .enqueue,
       .act .provider 1 (.recvPop 1), .act .provider 1 (.recvCommit 1 1),
       .act .client 1 (.finish 1 true), .deliver .client 1,
       .act .provider 1 (.recvCheck 1), .act .provider 1 (.recvEnd 0)]).any
      (fun s => decide ((s.ends .provider).ended = [⟨1, some .fin, true⟩]
        ∧ (s.ends .client).sent 1 = [[97]])) = true := by
    decide
  obtain ⟨s, hs, hp⟩ := Machine.exists_reachableUnder init_freshEnds hrun
  obtain ⟨hended, hsent⟩ := of_decide_eq_true hp
  refine ⟨s, hs, hended, hsent, ?_⟩
  obtain ⟨-, -, hall⟩ := exchange_integrity hs .client 1
  exact (hall _ (hended ▸ List.mem_cons_self) rfl rfl rfl).1

/-- The first chunk dies with its channel; the write of the second fails, and the abort frees
the first, of which nothing was read. -/
theorem abort_frees_unread :
    ∃ s, (exchangeMachine .default).ReachableUnder Exchange.Fits s
      ∧ IsChunk ((s.ends .client).sent 1) 0 [97]
      ∧ (s.ends .provider).received 1 = []
      ∧ ((s.ends .client).ctx 1).journal.segments[0]? = none := by
  have hrun : ((exchangeMachine .default).runUnder Exchange.Fits freshEnds
      [.act .client 0 (.openStream 1), .act .provider 0 (.openStream 1),
       .act .client 0 (.sendData 1 [97] true), .die 0,
       .act .client 0 (.sendData 1 [98] false)]).any
      (fun s => decide ((s.ends .client).sent 1 = [[97], [98]]
        ∧ (s.ends .provider).received 1 = []
        ∧ ((s.ends .client).ctx 1).journal.segments[0]? = none)) = true := by
    decide +kernel
  obtain ⟨s, hs, hp⟩ := Machine.exists_reachableUnder init_freshEnds hrun
  obtain ⟨hsent, hrest⟩ := of_decide_eq_true hp
  refine ⟨s, hs, ?_, hrest⟩
  rw [hsent]
  exact ⟨[], [[98]], rfl, rfl⟩

end Dweb
