import Libasock.ServerDescriptors

/-!
The socket a server listens on stays open while the server runs, whatever its users do: the library
closes numbers that connections remember, or one it has just been given, and no connection is ever
given the number of a socket that is open. No condition on the run is needed, unlike for the
connections' own descriptors.
-/

namespace Libasock.ListeningSockets
open ByteBlocks GuardedRuns NumberReuse ReturnCodes ConnectionObjects WorkerWorld ReferenceCounts
  DescriptorOwnership SocketContents RegisteredConnections ServerWorker ServerReferences
  ServerDescriptors

section Worlds

variable {world after : World} {number : Nat} {con : ConRef}

/-- The number is open, and no connection remembers it. -/
structure Apart (world : World) (number : Nat) : Prop where
  isOpen : (world.table.opened number).isSome = true
  others : ∀ con fd, assigned world none (some con) = some fd → fd.number ≠ number

theorem close_apart {fd : Descriptor} (apart : Apart world number) (different : fd.number ≠ number) :
    Apart (world.close (some fd)) number := by
  refine ⟨?_, fun con other remembers => ?_⟩
  · simp only [World.close, Table.close, Function.update_of_ne (Ne.symm different)]
    exact apart.isOpen
  · rw [(keeps_objects (close_objects (some fd)) : Keeps world _).assigned] at remembers
    exact apart.others con other remembers

/-- Steps that give no connection a descriptor and leave the table alone. -/
theorem keeps_apart (apart : Apart world number) (keeps : Keeps world after)
    (table : after.table = world.table) : Apart after number := by
  refine ⟨table ▸ apart.isOpen, fun con fd remembers => ?_⟩
  rw [keeps.assigned] at remembers
  exact apart.others con fd remembers

theorem neutral_apart (apart : Apart world number) (neutral : Neutral world after) :
    Apart after number := keeps_apart apart neutral.keeps neutral.table

theorem destroy_apart (apart : Apart world number) (con : ConRef) :
    Apart (world.destroyAsock con) number := by
  cases found : world.objects con with
  | none =>
      rw [destroy_unknown found]
      exact apart
  | some object =>
      obtain ⟨keeps, ⟨_, table⟩ | ⟨_, _, table⟩⟩ := destroy_effect found
      · exact keeps_apart apart keeps table
      · cases remembers : object.con.mSockDesc with
        | none =>
            rw [remembers] at table
            exact keeps_apart apart keeps table
        | some fd =>
            rw [remembers] at table
            have different := apart.others con fd (assigned_some found remembers)
            have closed := close_apart apart different
            refine ⟨table ▸ closed.isOpen, fun other held here => ?_⟩
            rw [keeps.assigned] at here
            exact apart.others other held here

theorem half_apart (apart : Apart world number) (closed : Nat) :
    Apart (halfClosed world closed) number := by
  have forgotten := neutral_apart apart (forgetNew_neutral world closed)
  obtain ⟨_, _, same⟩ | ⟨con, index, object, fd, _, _, found, remembers, _, _, same⟩ :=
    half_found world closed
  · rw [same]
    exact forgotten
  · obtain ⟨keeps, _, table⟩ := shutAt_keeps (forgotten_found found closed) remembers
    have different := apart.others con fd (assigned_some found remembers)
    have shut := close_apart forgotten different
    rw [same]
    refine ⟨?_, fun other held here => ?_⟩
    · exact (congrArg (fun table => (table.opened number).isSome) table).trans shut.isOpen
    · rw [show assigned (((world.forgetNew closed).shutAt con).setConnections
        (world.mConnections.erase index)) none = _ from keeps.assigned none] at here
      exact forgotten.others other held here

theorem closeConnection_apart (apart : Apart world number) (closed : Nat) :
    Apart (world.closeConnection closed).2 number := by
  have half := half_apart apart closed
  rw [close_half]
  cases (world.shut closed).1 with
  | none => exact half
  | some entry => exact destroy_apart half entry.1

/-- A number that is open is given to nobody. -/
theorem acquire_apart {given : Nat} {fd : Descriptor} (apart : Apart world number)
    (acquires : world.acquire given = some (fd, after)) :
    Apart after number ∧ fd.number ≠ number := by
  obtain ⟨objects, table, _⟩ := acquire_effect acquires
  obtain ⟨free, rfl, opened⟩ := acquire_shape table
  have different : given ≠ number := by
    rintro rfl
    have isOpen := apart.isOpen
    rw [free] at isOpen
    cases isOpen
  refine ⟨⟨?_, fun con held remembers => ?_⟩, different⟩
  · rw [opened]
    simp only [Function.update_of_ne (Ne.symm different)]
    exact apart.isOpen
  · rw [(keeps_objects objects : Keeps world after).assigned] at remembers
    exact apart.others con held remembers

theorem add_apart {made : Asock} {fd : Descriptor} (apart : Apart world number)
    (remembers : made.mSockDesc = some fd) (different : fd.number ≠ number) :
    Apart (world.add made) number := by
  refine ⟨apart.isOpen, fun con held here => ?_⟩
  rw [(added_owners world remembers).1] at here
  by_cases hit : con = world.created
  · subst hit
    rw [Function.update_self, Option.some.injEq] at here
    exact here ▸ different
  · rw [Function.update_of_ne (by simpa using hit)] at here
    exact apart.others con held here

end Worlds

section Servers

variable {server after : Server} {label : Label}

/-- The socket a running server listens on, also apart from the one it is accepting. -/
structure Listens (server : Server) : Prop where
  apart : Apart server.world server.mServerSocket.number
  accepted : ∀ con infd, making server.pc = some (con, infd) →
    infd.number ≠ server.mServerSocket.number

theorem clear_listens {world : World} {con : ConRef} {infd : Descriptor}
    (apart : Apart world server.mServerSocket.number)
    (different : infd.number ≠ server.mServerSocket.number) :
    Listens (clearAfterFailure server world con infd) :=
  ⟨close_apart (destroy_apart apart con) different, fun _ _ makes => by cases makes⟩

theorem accept_listens {number : Nat} {peer : List Byte} {answers : AcceptAnswers}
    (listens : Listens server) (accepts : acceptStep server number peer answers = some after) :
    Listens after := by
  obtain ⟨infd, world, acquires, rfl | ⟨made, arrived, rfl | ⟨_, rfl⟩⟩⟩ := accept_cases accepts
  · obtain ⟨apart, different⟩ := acquire_apart listens.apart acquires
    exact ⟨close_apart apart different, fun _ _ makes => by cases makes⟩
  · obtain ⟨apart, different⟩ := acquire_apart listens.apart acquires
    refine ⟨add_apart apart arrived.descriptor different, fun con fd makes => ?_⟩
    cases makes
    exact different
  · obtain ⟨apart, different⟩ := acquire_apart listens.apart acquires
    exact clear_listens (add_apart apart arrived.descriptor different) different

theorem register_listens {con : ConRef} {infd : Descriptor} (listens : Listens server)
    (pc : server.pc = .created con infd) (granted : Bool) :
    Listens (registerStep server con infd granted) := by
  have different := listens.accepted con infd (by rw [pc]; rfl)
  rcases register_cases server con infd granted with ⟨_, same⟩ | ⟨_, _, same⟩
  · rw [same]
    refine ⟨keeps_apart listens.apart (keeps_objects rfl) rfl, fun other fd makes => ?_⟩
    cases makes
    exact different
  · rw [same]
    exact clear_listens (keeps_apart listens.apart (keeps_objects rfl) rfl) different

theorem announce_listens {con : ConRef} {infd : Descriptor} (listens : Listens server)
    (pc : server.pc = .registered con infd) (granted : Bool) :
    Listens (announceStep server con infd granted) := by
  have different := listens.accepted con infd (by rw [pc]; rfl)
  rcases announce_cases server con infd granted with ⟨_, same⟩ | ⟨_, _, same⟩
  · rw [same]
    exact ⟨keeps_apart listens.apart (keeps_objects rfl) rfl, fun _ _ makes => by cases makes⟩
  · rw [same]
    exact clear_listens (keeps_apart listens.apart (keeps_objects rfl) rfl) different

theorem userDestroy_apart {con : ConRef} {world : World} {number : Nat}
    (apart : Apart server.world number) (destroys : server.world.userDestroy con = some world) :
    Apart world number := by
  obtain ⟨_, rfl⟩ := userDestroy_cases _ destroys
  have given : Apart (server.world.setHeld (server.world.held.erase con)) number :=
    keeps_apart apart (keeps_objects rfl) rfl
  exact destroy_apart given con

/-- One step of a server, with no condition on it. -/
theorem step_listens (listens : Listens server) (stepped : step server label = some after)
    (runs : running after.pc = true) : Listens after := by
  have still : ∀ {next : Server}, Neutral server.world next.world →
      next.mServerSocket = server.mServerSocket →
      (ServerDescriptors.making next.pc = none ∨ next.pc = server.pc) → Listens next := by
    intro next neutral socket pcs
    refine ⟨socket ▸ neutral_apart listens.apart neutral, fun con infd makes => ?_⟩
    rcases pcs with none | same
    · rw [none] at makes
      cases makes
    · rw [socket]
      exact listens.accepted con infd (same ▸ makes)
  cases step_moved stepped with
  | closed number peer closing =>
      exact ⟨closeConnection_apart listens.apart number, fun _ _ makes => by cases makes⟩
  | turned pc before isQuiet =>
      exact still (neutral_objects rfl rfl) rfl (.inl (quiet_running isQuiet).2.1)
  | accepted pc accepts => exact accept_listens listens accepts
  | registered con infd pc => exact register_listens listens pc _
  | announced con infd pc => exact announce_listens listens pc _
  | raised con pc => exact still (neutral_incr server.world con) rfl (.inl rfl)
  | read number world pc reads => exact still (neutral_readData reads) rfl (.inr rfl)
  | stopped => cases runs
  | destroyed => cases runs
  | userAccepted =>
      unfold userAcceptStep
      split
      · exact listens
      · exact still (neutral_objects rfl rfl) rfl (.inr rfl)
  | userRead world reads => exact still (neutral_userRead reads) rfl (.inr rfl)
  | userDestroyed world destroys =>
      exact ⟨userDestroy_apart listens.apart destroys, listens.accepted⟩
  | arrived world arrives => exact still (neutral_arrive arrives) rfl (.inr rfl)

theorem listening_listens (mServerId : Int) (number : Nat) : Listens (.listening mServerId number) := by
  refine ⟨⟨?_, fun con fd remembers => by cases remembers⟩, fun _ _ makes => by cases makes⟩
  simp [Server.listening]

end Servers

end Libasock.ListeningSockets
