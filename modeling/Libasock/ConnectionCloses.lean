import Libasock.InterruptedCloses
import Libasock.ServerDelivery
import Libasock.ServiceDelivery

/-!
What the closes of the two workers come to over whole runs: how often a
descriptor is closed, and which bytes a close because of the peer leaves behind.
-/

namespace Libasock.ConnectionCloses
open GuardedRuns NumberReuse TsqueueContent ConnectionObjects WorkerWorld SocketContents
  ServerReferences ServiceStates
open InterruptedCloses hiding Label

def moves {Moves : Type} (labels : List Moves) : List (InterruptedCloses.Label Moves) :=
  labels.map .move

theorem peer_closes_complete (mServerId mServiceId : Int) (number : Nat) :
    (∀ server, GuardedRun ServerWorker.step ServerDelivery.EmptyAtHangUp
        (.listening mServerId number) server →
      ∀ con ∈ server.closedByPeer, Complete server.world con) ∧
      ∀ service, GuardedRun ServiceWorker.step ServiceDelivery.EmptyAtHangUp
        (.configured mServiceId) service →
      ∀ con ∈ service.closedByPeer, Complete service.world con :=
  ⟨fun _ run => ServerDelivery.server_complete run,
    fun _ run => ServiceDelivery.service_complete run⟩

-- Two bytes and the end of the stream are reported together; the close comes first.
theorem hang_up_discards : ∃ server, Run ServerWorker.step (.listening 1 3) server ∧
    ∃ con ∈ server.closedByPeer, ¬ Complete server.world con := by
  obtain ⟨server, run, tested⟩ := replayed ServerWorker.step (fun _ _ => True) (.listening 1 3)
    (acceptOne 3 5 ++ [.userAccept, .arrive 5 [104, 105], .event 5 hungUp])
    (fun server => server.closedByPeer = [0] ∧
      (server.world.objects 0).map (fun object => (object.con.mSockDesc, object.returned,
        bytesOf object.con.mInQueue)) = some (some ⟨5, 1⟩, [], []) ∧
      (server.world.sockets 1).buffered = [104, 105]) (by decide +kernel)
  obtain ⟨closed, seen, left⟩ := of_decide_eq_true tested
  refine ⟨server, run, 0, by simp [closed], ?_⟩
  rintro ⟨object, fd, found, remembers, complete⟩
  simp only [found, remembers, Option.map_some, Option.some.injEq, Prod.mk.injEq] at seen
  obtain ⟨rfl, returned, queued⟩ := seen
  simp [returned, queued, left] at complete

theorem drained_connections_complete :
    (∃ server, Run ServerWorker.step (.listening 1 3) server ∧
      server.closedByPeer = [0] ∧ Complete server.world 0) ∧
    ∃ service, Run ServiceWorker.step (.configured 1) service ∧
      service.closedByPeer = [0] ∧ Complete service.world 0 := by
  obtain ⟨server, serverRun, serverTested⟩ := replayed ServerWorker.step
    ServerDelivery.EmptyAtHangUp (.listening 1 3)
    (acceptOne 3 5 ++ [.userAccept, .arrive 5 [104, 105], .event 5 readable, .readData 2 zeroed,
      .readAgain, .event 5 hungUp])
    (fun server => server.closedByPeer = [0]) (by decide +kernel)
  obtain ⟨service, serviceRun, serviceTested⟩ := replayed ServiceWorker.step
    ServiceDelivery.EmptyAtHangUp (.configured 1)
    (.start :: connectOne 4 5 0 ++ [.arrive 5 [104, 105], .event 5 readable, .handle,
      .readData 2 zeroed, .readEnd])
    (fun service => service.closedByPeer = [0]) (by decide +kernel)
  have serverClosed := of_decide_eq_true serverTested
  have serviceClosed := of_decide_eq_true serviceTested
  obtain ⟨serverComplete, serviceComplete⟩ := peer_closes_complete 1 1 3
  exact ⟨⟨server, serverRun.weaken fun _ _ _ => trivial, serverClosed,
      serverComplete server serverRun 0 (by simp [serverClosed])⟩,
    ⟨service, serviceRun.weaken fun _ _ _ => trivial, serviceClosed,
      serviceComplete service serviceRun 0 (by simp [serviceClosed])⟩⟩

end Libasock.ConnectionCloses
