import LibEvRpc.Center.Registration
import LibEvRpc.Proofs.ClientWalk
import LibEvRpc.Proofs.Transport

/-! # Registrations arrive

The numbers of the actions between servers and centers start at one, so a registration and its answer
have no zero byte, unlike the messages of an election. Only the ping of a server without load has one.
-/

namespace LibEvRpc

open RpcCenter BufferedCenter Entries

variable {stream : CodedStream}

/-- A text under the id of the protocol with servers is parsed as a message of a server. -/
theorem ofReceived_cluster (text : Bytes) :
    Incoming.ofReceived stream ⟨center2Cluster, text, 0, []⟩ =
      .cluster (((Pb.RpcClusterServer.table stream).mergeFromCodedStream stream {} text).map
        Pb.RpcClusterServer.content) := rfl

/-- A short message of a server is found by the center if no field has a zero byte, and as a malformed
one otherwise. -/
theorem ofServer_of_short {message : Pb.RpcClusterServer} {sender : Bytes}
    (named : message.clusterServerAddr = some sender) (short : message.byteSize stream < 511) :
    (message.NulFree → Incoming.ofServer stream message = some (.cluster (some message.content))) ∧
      (¬ message.NulFree → Incoming.ofServer stream message = some (.cluster none)) := by
  have sized : 0 < message.byteSize stream := by
    rw [Pb.RpcClusterServer.byteSize, named, Option.elim_some, Pb.bytesSize]
    omega
  obtain ⟨info, text, made, arrived, whole, cut⟩ := @carried_of_short stream (.cluster message)
    (.cluster {}) center2Cluster rfl (by decide) sized short
  rw [Incoming.ofServer, made, Option.bind_some, arrived, Option.map_some, ofReceived_cluster]
  constructor
  · intro free
    obtain ⟨found, merged, same⟩ := Option.map_eq_some_iff.mp (whole free)
    cases same
    rw [merged, Option.map_some]
  · intro zero
    rw [Option.map_eq_none_iff.mp (cut zero), Option.map_none]

/-- A message of a server is not much longer than its address. -/
theorem byteSize_server_lt {message : Pb.RpcClusterServer} (noCpu : message.cpuUsed = none)
    (noConnections : message.connectionNum = none)
    (short : (message.clusterServerAddr.getD []).length ≤ 400) : message.byteSize stream < 511 := by
  have addr := @elim_bytesSize_le stream message.clusterServerAddr
  have action := @elim_uintSize_le stream _ ClusteAction.number message.clusterAction
  have load := @elim_uintSize_le stream _ UInt32.toUInt64 message.load
  rw [Pb.RpcClusterServer.byteSize, noCpu, noConnections]
  simp only [Option.elim_none]
  omega

/-- The centers of an answer are written without a zero byte, in one block. -/
def ShortTexts (addrs : List Bytes) : Prop := ∀ addr ∈ addrs, Pb.Text addr ∧ addr.length ≤ 100

theorem byteSize_answer_lt {crc : CenterResponseCluster} (few : crc.shouldReporterCenter.length ≤ 3)
    (short : ShortTexts crc.shouldReporterCenter) :
    (Pb.CenterResponseCluster.ofAnswer crc).byteSize stream < 511 := by
  have action := @uintSize_le stream crc.centerResponseAction.number
  have sizes : (crc.shouldReporterCenter.map fun value => Pb.bytesSize stream value.length).sum ≤
      crc.shouldReporterCenter.length * 111 := by
    rw [← List.length_map (f := fun value : Bytes => Pb.bytesSize stream value.length)]
    apply List.sum_le_card_nsmul
    intro size member
    obtain ⟨addr, listed, rfl⟩ := List.mem_map.mp member
    have bound := @bytesSize_le stream addr.length
    have length := (short addr listed).2
    omega
  rw [Pb.CenterResponseCluster.byteSize, Pb.CenterResponseCluster.ofAnswer]
  simp only [Option.elim_some]
  omega

/-- An answer with at most three centers is found by the server. -/
theorem receivedAnswer_eq {crc : CenterResponseCluster} (few : crc.shouldReporterCenter.length ≤ 3)
    (short : ShortTexts crc.shouldReporterCenter) : receivedAnswer stream crc = some (some crc) := by
  have sized : 0 < (Pb.CenterResponseCluster.ofAnswer crc).byteSize stream := by
    rw [Pb.CenterResponseCluster.byteSize, Pb.CenterResponseCluster.ofAnswer, Option.elim_some,
      Pb.uintSize]
    omega
  obtain ⟨info, text, made, arrived, whole, _⟩ := @carried_of_short stream (.response (.ofAnswer crc))
    (.response {}) center2Cluster rfl (by decide) sized (byteSize_answer_lt few short)
  obtain ⟨found, merged, same⟩ := Option.map_eq_some_iff.mp (whole fun value member => (short value member).1)
  cases same
  rw [receivedAnswer, made, Option.bind_some, arrived, Option.map_some]
  exact congrArg (fun parsed => some (parsed.map Pb.CenterResponseCluster.content)) merged

/-- The ring of an initialised center has the lines of its list. -/
theorem shortTexts_ring {addr : Bytes} {lines : List Bytes} {state : BufferedCenter}
    (initialised : Initialised addr lines state) (short : ShortTexts lines) :
    ShortTexts (state.center.centerHashMap.toList.map Prod.snd) := by
  intro center member
  obtain ⟨node, found, rfl⟩ := List.mem_map.mp member
  rw [initialised.centerHashMap, centerRing] at found
  exact short _ (List.mem_filter.mp (mem_of_mem_registered found)).1

/-- The loop of `REGISTER` finds three centers of the ring. -/
theorem clusterCenters_mem {ring : VnHashMap} {hashId : UInt32} {centers : List Bytes}
    (success : clusterCenters ring.toList 3 (lowerBound ring hashId) = some centers) :
    centers.length = 3 ∧ ∀ center ∈ centers, center ∈ ring.toList.map Prod.snd := by
  rw [clusterCenters_lowerBound, Option.ite_none_right_eq_some] at success
  obtain ⟨enough, found⟩ := success
  cases found
  constructor
  · rw [List.length_map, List.length_take]
    omega
  · intro center member
    obtain ⟨node, read, rfl⟩ := List.mem_map.mp member
    exact List.mem_map_of_mem (mem_of_mem_read (List.mem_of_mem_take read))

/-- A dotted address is found as it was sent, and a message with it is short. -/
theorem ofServer_of_dotted {message : Pb.RpcClusterServer} {address : UInt8 × UInt8 × UInt8 × UInt8}
    (named : message.clusterServerAddr = some (inetNtoa address)) (noCpu : message.cpuUsed = none)
    (noConnections : message.connectionNum = none) :
    Incoming.ofServer stream message =
      some (.cluster (if message.load = some 0 then none else some message.content)) := by
  have length := inetNtoa_length_le address
  have small : message.byteSize stream < 511 := by
    apply byteSize_server_lt noCpu noConnections
    rw [named, Option.getD_some]
    omega
  obtain ⟨heard, unheard⟩ := ofServer_of_short named small
  split
  · next idle =>
    apply unheard
    intro free
    exact free.load 0 idle rfl
  · next loaded =>
    apply heard
    refine ⟨?_, ?_, ?_, ?_⟩
    · intro value member
      rw [named] at member
      cases member
      exact text_inetNtoa address
    · rintro value member rfl
      exact loaded member
    · intro value member
      rw [noCpu] at member
      contradiction
    · intro value member
      rw [noConnections] at member
      contradiction

/-- A server at a dotted address registers with an initialised center: the answer arrives whatever it
is. A center that is ready takes the server up and names three centers, unless it reads the end of its
ring; another one turns the server away. A ping arrives unless the load is zero. -/
theorem BufferedCenter.register_eq {addr localAddr : Bytes} {lines : List Bytes}
    {state : BufferedCenter} (initialised : Initialised addr lines state) (short : ShortTexts lines)
    (dotted : ∃ address, localAddr = inetNtoa address) (connFd : Int32) :
    state.register stream connFd localAddr =
        (if centerIsReady state.center then
          (clusterCenters state.center.centerHashMap.toList 3
            (lowerBound state.center.centerHashMap (serverHash localAddr))).map fun centers =>
              (afterRegister state ⟨.register, localAddr⟩, some ⟨.clusterResp, centers⟩)
        else some (state, some { centerResponseAction := .centerNotReady })) ∧
      ∀ load, Incoming.ofServer stream (.ping localAddr load) =
        some (.cluster (if load = 0 then none else some ⟨.clusterPing, localAddr⟩)) := by
  obtain ⟨address, rfl⟩ := dotted
  constructor
  · have heard : Incoming.ofServer stream (.register (inetNtoa address)) =
        some (.cluster (some ⟨.register, inetNtoa address⟩)) :=
      ofServer_of_dotted rfl rfl rfl
    rw [BufferedCenter.register, heard, Option.bind_some, centerProcessor]
    split
    · next notReady =>
      rw [if_neg (by simpa using notReady), Option.bind_some, sendReply, if_pos rfl]
      dsimp only
      rw [receivedAnswer_eq (Nat.zero_le _) fun _ member => by contradiction, Option.map_some]
    · next ready =>
      rw [if_pos (by simpa using ready), processClusterRequest_register _ _ _ rfl]
      cases found : clusterCenters state.center.centerHashMap.toList 3
        (lowerBound state.center.centerHashMap (serverHash (inetNtoa address))) with
      | none => rfl
      | some centers =>
        obtain ⟨three, listed⟩ := clusterCenters_mem found
        simp only [Option.map_some, Option.bind_some, ↓reduceIte, sendReply]
        rw [receivedAnswer_eq three.le
          fun center member => shortTexts_ring initialised short center (listed center member),
          Option.map_some]
  · intro load
    have heard : Incoming.ofServer stream (.ping (inetNtoa address) load) =
        some (.cluster (if some load = some 0 then none else some ⟨.clusterPing, inetNtoa address⟩)) :=
      ofServer_of_dotted rfl rfl rfl
    simpa only [Option.some_inj] using heard

/-- The server `10.0.1.35`, whose hash is behind all nodes, registers with a center that follows. -/
theorem BufferedCenter.register_eq_follower :
    (followerOf threeCenters (sampleAddress 1)).register .base128 5 (inetNtoa (10, 0, 1, 35)) =
      some (afterRegister (followerOf threeCenters (sampleAddress 1)) ⟨.register, inetNtoa (10, 0, 1, 35)⟩,
        some ⟨.clusterResp, successorCenters (serverHash (inetNtoa (10, 0, 1, 35)))
          (followerOf threeCenters (sampleAddress 1)).center.centerHashMap⟩) := by
  have short : ShortTexts threeCenters := by
    rw [ShortTexts, threeCenters]
    simp only [List.forall_mem_cons]
    exact ⟨⟨text_inetNtoa (10, 0, 0, 1), by decide⟩, ⟨text_inetNtoa (10, 0, 0, 2), by decide⟩,
      ⟨text_inetNtoa (10, 0, 0, 3), by decide⟩, List.forall_mem_nil _⟩
  have found : clusterCenters (followerOf threeCenters (sampleAddress 1)).center.centerHashMap.toList 3
      (lowerBound (followerOf threeCenters (sampleAddress 1)).center.centerHashMap
        (serverHash (inetNtoa (10, 0, 1, 35)))) =
      some (successorCenters (serverHash (inetNtoa (10, 0, 1, 35)))
        (followerOf threeCenters (sampleAddress 1)).center.centerHashMap) :=
    (clusterCenters_successors_iff _ _).mpr (.inl (by decide +kernel))
  rw [(BufferedCenter.register_eq (initialised_followerOf threeCenters (sampleAddress 1)) short
    ⟨(10, 0, 1, 35), rfl⟩ 5).1, found]
  rfl

end LibEvRpc
