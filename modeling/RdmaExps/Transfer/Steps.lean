import RdmaExps.Transfer.Turns

namespace RdmaExps.Transfer

open RdmaExps.Python RdmaExps.Verbs RdmaExps.Wire RdmaExps.Run

variable (setup : Setup)

/-- Every byte that is still to be read costs as much as a round. -/
def Load.rank (load : Load) (unread : Nat) : Nat :=
  match load with
  | .chunk _ [] => 0
  | _ => 21 + 100 * unread

theorem Load.rank_chunk (got data : List Byte) (unread : Nat) :
    (Load.chunk got data).rank unread ≤ 21 * data.length + 100 * unread := by
  cases data with
  | nil => exact Nat.zero_le _
  | cons byte rest =>
    simp only [Load.rank, List.length_cons]
    omega

def MessageId.rank (id : MessageId) (unread : Nat) : Nat :=
  match id with
  | .mr => 44 + setup.fileName.length + 100 * unread
  | .ready => 21 + 100 * unread
  | _ => 4

/-- How far the end is. -/
def Turn.rank (turn : Turn) (unread : Nat) : Nat :=
  match turn with
  | .accept => 53 + setup.fileName.length + 100 * unread
  | .setId => 52 + setup.fileName.length + 100 * unread
  | .setMr => 51 + setup.fileName.length + 100 * unread
  | .greet => 50 + setup.fileName.length + 100 * unread
  | .reply id => id.rank setup unread + 6
  | .message id => id.rank setup unread + 5
  | .inbox id => id.rank setup unread + 1
  | .look id => id.rank setup unread
  | .storePeer => 43 + setup.fileName.length + 100 * unread
  | .storeName => 42 + setup.fileName.length + 100 * unread
  | .read => 20 + 100 * unread
  | .post load => load.rank unread + 19 + (load.bytes setup).length
  | .flight load moved => load.rank unread + 16 + ((load.bytes setup).length - moved)
  | .arrived load => load.rank unread + 12
  | .check _ => 32 + 100 * unread
  | .copyName => 31 + 100 * unread
  | .openNew => 30 + 100 * unread
  | .write _ _ => 30 + 100 * unread
  | .rearm => 29 + 100 * unread
  | .setReady => 28 + 100 * unread
  | .setDone => 11
  | .failed _ => 0
  | .disconnect => 3
  | .finished => 2
  | .hungUp => 1
  | .closed => 0

/-- The acknowledgements and the completions that are still to come. -/
def QueuePair.pending {Wr : Type} (qp : QueuePair Wr Wc) : Nat := 2 * qp.unacked.length + qp.completions.length

def State.pending (s : State) : Nat := QueuePair.pending s.client.qp + QueuePair.pending s.server.qp

def rank (turn : Turn) (late : Bool) (s : State) : Nat :=
  turn.rank setup s.client.unread.length + late.toNat + s.pending

/-- The invariant holds, nearer to the end. -/
def Lower (n : Nat) (s : State) : Prop := ∃ turn late, At setup turn late s ∧ rank setup turn late s < n

variable {setup} {turn : Turn} {late : Bool} {s : State}

theorem At.serverPoller (holds : At setup turn late s) : s.server.poller = (turn.server setup).poller :=
  congrArg ServerShape.poller holds.server

theorem At.serverEvents (holds : At setup turn late s) : s.server.events = (turn.server setup).events :=
  congrArg ServerShape.events holds.server

theorem At.clientPoller (holds : At setup turn late s) : s.client.poller = ((turn.client setup).shape late).poller :=
  congrArg ClientShape.poller holds.client

/-- The server makes a step that the client does not see. -/
theorem At.server_turn {v : ServerState} (holds : At setup turn late s) (turn' : Turn)
    (same : turn'.client setup = turn.client setup) (shape : v.shape = turn'.server setup)
    (bufferMr : v.bufferMr = s.server.bufferMr) (qp : QueuePair.pending v.qp = QueuePair.pending s.server.qp)
    (data : turn'.Data setup (State.view { s with server := v }))
    (lower : turn'.rank setup s.client.unread.length < turn.rank setup s.client.unread.length) :
    Lower setup (rank setup turn late s) { s with server := v } := by
  refine ⟨turn', late, ⟨?_, shape, bufferMr.trans holds.bufferMr, data⟩, ?_⟩
  · rw [same]
    exact holds.client
  · simp only [rank, State.pending, qp]
    omega

/-- The client makes a step in a callback. -/
theorem At.client_turn {c : ClientState} (holds : At setup turn late s) (turn' : Turn) (late' : Bool)
    (same : turn'.server setup = turn.server setup) (shape : c.shape = (turn'.client setup).shape late')
    (qp : QueuePair.pending c.qp = QueuePair.pending s.client.qp)
    (data : turn'.Data setup (State.view { s with client := c }))
    (lower : turn'.rank setup c.unread.length + late'.toNat < turn.rank setup s.client.unread.length + late.toNat) :
    Lower setup (rank setup turn late s) { s with client := c } := by
  refine ⟨turn', late', ⟨shape, ?_, holds.bufferMr, data⟩, ?_⟩
  · rw [same]
    exact holds.server
  · simp only [rank, State.pending, qp]
    omega

/-- The server does nothing but what its calls can do. -/
def Sound (does : ServerBehaviour) : Prop := ∀ call v reply v', does call v reply v' → call.Does v reply v'

variable {does : ServerBehaviour} {q : Server Unit} {v : ServerState}

theorem server_events (sound : Sound does) (holds : At setup turn late s)
    (advances : Advances does s.server.events s.server q v) :
    Lower setup (rank setup turn late s) { s with server := { v with events := q } } := by
  rw [holds.serverEvents] at advances
  cases turn with
  | accept =>
    obtain ⟨reply, does, rfl⟩ := advances
    cases sound _ _ _ _ does
    exact holds.server_turn .setId rfl
      (congrArg (fun shape : ServerShape => { shape with events := Server.onConnection, receives := shape.receives + 1 })
        holds.server) rfl rfl holds.data (by simp [Turn.rank])
  | setId =>
    obtain ⟨reply, does, rfl⟩ := advances
    cases sound _ _ _ _ does
    exact holds.server_turn .setMr rfl
      (congrArg (fun shape : ServerShape => { shape with
        events := do Prog.call ServerCall.setMr; Server.sendMessage }) holds.server)
      rfl rfl ⟨holds.data, rfl⟩ (by simp [Turn.rank])
  | setMr =>
    obtain ⟨reply, does, rfl⟩ := advances
    cases sound _ _ _ _ does
    obtain ⟨fresh, id⟩ := holds.data
    exact holds.server_turn .greet rfl
      (congrArg (fun shape : ServerShape => { shape with events := Server.sendMessage }) holds.server)
      rfl rfl ⟨fresh, id, fun _ => holds.bufferMr⟩ (by simp [Turn.rank])
  | greet =>
    obtain ⟨reply, does, rfl⟩ := advances
    cases sound _ _ _ _ does
    exact holds.server_turn (.message .mr) rfl
      (congrArg (fun shape : ServerShape => { shape with events := pure (), sends := shape.sends ++ [()] }) holds.server)
      rfl rfl holds.data (by simp [Turn.rank, MessageId.rank]; omega)
  | hungUp =>
    obtain ⟨reply, does, rfl⟩ := advances
    cases sound _ _ _ _ does
    exact holds.server_turn .closed rfl
      (congrArg (fun shape : ServerShape => { shape with events := pure (), closed := true }) holds.server)
      rfl rfl holds.data (by simp [Turn.rank])
  | _ => exact absurd advances advances_pure

theorem Setup.size_name (setup : Setup) : (Load.name.size setup).toNat = setup.fileName.length + 1 := by
  have fits := setup.fits
  simp only [BUFFER_SIZE] at fits
  simp [Load.size, Load.bytes]
  omega

theorem Load.size_toNat {load : Load} {b : Books} (carried : load.Carried setup b) :
    (load.size setup).toNat = (load.bytes setup).length := by
  have small := carried.small
  simp only [BUFFER_SIZE] at small
  simp [Load.size]
  omega

/-- The name is copied up to the size of `file_name`. -/
theorem name_copied {remote : Buffer} (within : Load.name.In setup remote) (old : Buffer) {n : Nat}
    (bound : n = min (setup.fileName.length + 1) MAX_FILE_NAME) {fileName : Buffer}
    (copied : fileName = fun i => if i = n - 1 then 0 else Buffer.copy 0 n remote old i) :
    Named setup fileName := by
  have nonempty := List.length_pos_iff.mpr setup.named
  have size : n - 1 < MAX_FILE_NAME ∧ 0 < n - 1 ∧ n - 1 ≤ setup.fileName.length := by
    simp only [MAX_FILE_NAME] at bound ⊢
    omega
  have same : ∀ i < n - 1, fileName i = remote i := by
    intro i below
    rw [copied]
    simp only [Buffer.copy]
    rw [if_neg (by omega), if_pos (by omega)]
  have stop : fileName (n - 1) = 0 := by simp [copied]
  have front : fileName.bytes (n - 1) = setup.fileName.take (n - 1) := by
    rw [Buffer.bytes_congr same, ← Buffer.take_bytes remote (n := setup.fileName.length + 1) (by omega)]
    have whole : remote.bytes (setup.fileName.length + 1) = setup.fileName ++ [0] := by
      simpa [Load.In, Load.bytes] using within
    rw [whole, List.take_append_of_le_length size.2.2]
  have string : (0 : Byte) ∉ fileName.bytes (n - 1) := by
    rw [front]
    exact fun member => setup.string (List.mem_of_mem_take member)
  constructor
  · intro zero
    apply string
    rw [← zero]
    exact List.mem_map_of_mem (List.mem_range.mpr size.2.1)
  · rw [cString_bytes fileName size.1 stop string, front, Setup.target]
    rcases Nat.le_total (setup.fileName.length + 1) MAX_FILE_NAME with le | le
    · rw [List.take_of_length_le (by omega), List.take_of_length_le (by omega)]
    · rw [bound, Nat.min_eq_right le]

theorem server_check {load : Load} (sound : Sound does) (holds : At setup (.check load) late s)
    (advances : Advances does (Server.check (load.size setup)) s.server q v) :
    Lower setup (rank setup (.check load) late s) { s with server := { v with poller := q } } := by
  obtain ⟨reply, does, rfl⟩ := advances
  obtain ⟨rfl, rfl⟩ := sound _ _ _ _ does
  obtain ⟨carried, within, -⟩ := holds.data
  cases load with
  | name =>
    have unnamed : s.server.fileName 0 = 0 := carried.due.unnamed
    simp only [unnamed, ne_eq, not_true, decide_false]
    exact holds.server_turn .copyName rfl
      (congrArg (fun shape : ServerShape => { shape with poller := Server.copyName (Load.name.size setup) }) holds.server)
      rfl rfl ⟨carried, within⟩ (by simp [Turn.rank])
  | chunk got data =>
    have named : s.server.fileName 0 ≠ 0 := carried.due.1.named.nonempty
    simp only [named, ne_eq, not_false_eq_true, decide_true]
    exact holds.server_turn (.write got data) rfl
      (congrArg (fun shape : ServerShape => { shape with
        poller := Server.writeChunk ((Load.chunk got data).size setup) }) holds.server)
      rfl rfl ⟨carried, within⟩ (by simp [Turn.rank])

theorem server_copyName (sound : Sound does) (holds : At setup .copyName late s)
    (advances : Advances does (Server.copyName (Load.name.size setup)) s.server q v) :
    Lower setup (rank setup .copyName late s) { s with server := { v with poller := q } } := by
  obtain ⟨reply, does, rfl⟩ := advances
  cases sound _ _ _ _ does
  obtain ⟨carried, within⟩ := holds.data
  have named := name_copied within s.server.fileName
    (n := if (Load.name.size setup).toNat > MAX_FILE_NAME then MAX_FILE_NAME else (Load.name.size setup).toNat)
    (by rw [setup.size_name]; split <;> omega) rfl
  exact holds.server_turn .openNew rfl
    (congrArg (fun shape : ServerShape => { shape with poller := Server.openNew }) holds.server)
    rfl rfl ⟨named, carried.due.unopened, carried.due.unread, carried.peer⟩ (by simp [Turn.rank])

theorem server_openNew (sound : Sound does) (holds : At setup .openNew late s)
    (advances : Advances does Server.openNew s.server q v) :
    Lower setup (rank setup .openNew late s) { s with server := { v with poller := q } } := by
  obtain ⟨reply, does, rfl⟩ := advances
  obtain ⟨named, unopened, unread, peer⟩ := holds.data
  cases reply with
  | false =>
    cases sound _ _ _ _ does
    exact holds.server_turn (.failed "open() failed") rfl
      (congrArg (fun shape : ServerShape => { shape with poller := throw "open() failed" }) holds.server)
      rfl rfl (.inl unopened) (by simp [Turn.rank])
  | true =>
    obtain ⟨-, rfl⟩ := sound _ _ _ _ does
    have name : s.server.name = setup.target := named.name
    have opened : Holds setup [] ⟨s.client.peer, s.client.unread, s.server.fileName, some s.server.name,
        Function.update s.server.files s.server.name (some [])⟩ := by
      refine ⟨named, congrArg some name, ?_⟩
      rw [name]
      exact Function.update_self ..
    exact holds.server_turn .rearm rfl
      (congrArg (fun shape : ServerShape => { shape with poller := Server.rearm }) holds.server)
      rfl rfl ⟨peer, [], opened, unread⟩ (by simp [Turn.rank])

theorem server_write {got data : List Byte} (sound : Sound does) (holds : At setup (.write got data) late s)
    (advances : Advances does (Server.writeChunk ((Load.chunk got data).size setup)) s.server q v) :
    Lower setup (rank setup (.write got data) late s) { s with server := { v with poller := q } } := by
  obtain ⟨n, does, next⟩ := advances
  obtain ⟨carried, within⟩ := holds.data
  obtain ⟨le, -, target, old, opened, content, rfl⟩ := sound _ _ _ _ does
  obtain ⟨held, ledger, -⟩ := carried.due
  have size := Load.size_toNat carried
  rw [size] at le
  cases held.opened.symm.trans opened
  cases held.content.symm.trans content
  have bytes : s.server.buffer.bytes n = data.take n := by
    rw [← Buffer.take_bytes _ le]
    exact congrArg (List.take n) within
  have written : Holds setup (got ++ data.take n) ⟨s.client.peer, s.client.unread, s.server.fileName, s.server.fd,
      Function.update s.server.files setup.target (some (got ++ s.server.buffer.bytes n))⟩ := by
    refine ⟨held.named, held.opened, ?_⟩
    rw [bytes]
    exact Function.update_self ..
  by_cases short : n ≠ data.length
  · have test : n ≠ ((Load.chunk got data).size setup).toNat := by rwa [size]
    obtain rfl : q = throw "write() failed" := next.trans (if_pos test)
    refine holds.server_turn (.failed "write() failed") rfl
      (congrArg (fun shape : ServerShape => { shape with poller := throw "write() failed" }) holds.server) rfl rfl ?_ ?_
    · refine .inr ⟨data.drop n ++ s.client.unread, _, written, ?_⟩
      rw [← List.append_assoc, List.append_assoc got, List.take_append_drop]
      exact ledger
    · simp [Turn.rank]
  · have test : ¬ n ≠ ((Load.chunk got data).size setup).toNat := by rwa [size]
    obtain rfl : q = Server.rearm := next.trans (if_neg test)
    obtain rfl := not_not.mp short
    rw [List.take_length] at written
    exact holds.server_turn .rearm rfl
      (congrArg (fun shape : ServerShape => { shape with poller := Server.rearm }) holds.server)
      rfl rfl ⟨carried.peer, _, written, ledger⟩ (by simp [Turn.rank])

theorem At.answers {id : MessageId} (sound : Sound does) (holds : At setup turn late s)
    (same : turn.client setup = .rest [] 0) (shape : s.server.shape =
      { Turn.idle (Turn.armed id) with poller := Server.answer id })
    (due : id.Due setup s.books) (other : id ≠ .mr)
    (lower : id.rank setup s.client.unread.length + 6 < turn.rank setup s.client.unread.length)
    (advances : Advances does (Server.answer id) s.server q v) :
    Lower setup (rank setup turn late s) { s with server := { v with poller := q } } := by
  obtain ⟨reply, does, rfl⟩ := advances
  cases sound _ _ _ _ does
  exact holds.server_turn (.reply id) same.symm
    (congrArg (fun shape : ServerShape => { shape with poller := Server.sendMessage }) shape)
    rfl rfl ⟨due, rfl, fun mr => absurd mr other⟩ lower

theorem server_call (sound : Sound does) (holds : At setup turn late s)
    (advances : Advances does s.server.poller s.server q v) :
    Lower setup (rank setup turn late s) { s with server := { v with poller := q } } := by
  rw [holds.serverPoller] at advances
  cases turn with
  | check load => exact server_check sound holds advances
  | copyName => exact server_copyName sound holds advances
  | openNew => exact server_openNew sound holds advances
  | write got data => exact server_write sound holds advances
  | rearm =>
    obtain ⟨reply, does, rfl⟩ := advances
    cases sound _ _ _ _ does
    exact holds.server_turn .setReady rfl
      (congrArg (fun shape : ServerShape => { shape with
        poller := Server.answer .ready, receives := shape.receives + 1 }) holds.server)
      rfl rfl holds.data (by simp [Turn.rank])
  | setReady =>
    exact holds.answers sound rfl holds.server holds.data (by decide) (by simp [Turn.rank, MessageId.rank]; omega) advances
  | setDone =>
    exact holds.answers sound rfl holds.server holds.data (by decide) (by simp [Turn.rank, MessageId.rank]) advances
  | reply id =>
    obtain ⟨reply, does, rfl⟩ := advances
    cases sound _ _ _ _ does
    exact holds.server_turn (.message id) rfl
      (congrArg (fun shape : ServerShape => { shape with poller := pure (), sends := shape.sends ++ [()] }) holds.server)
      rfl rfl holds.data (by simp [Turn.rank])
  | failed error => exact absurd advances advances_throw
  | _ => exact absurd advances advances_pure

variable {p : Client Unit} {c : ClientState}

theorem client_look {id : MessageId} (holds : At setup (.look id) late s)
    (advances : Advances (ClientCall.Does setup.order) (Client.onCompletion setup.fileName .received) s.client p c) :
    Lower setup (rank setup (.look id) late s) { s with client := { c with poller := p } } := by
  obtain ⟨msg, ⟨rfl, rfl⟩, next⟩ := advances
  obtain ⟨due, is, mr⟩ := holds.data
  have sent : s.client.msg.id = id := is
  dsimp only [Prog.ofExcept, Prog.bind] at next
  rw [sent] at next
  cases id with
  | invalid => exact due.elim
  | mr =>
    rw [show s.client.msg.mr = setup.bufferMr from mr rfl] at next
    subst next
    exact holds.client_turn .storePeer false rfl
      (congrArg (fun shape : ClientShape => { shape with poller := do
        Prog.call (ClientCall.storePeer setup.bufferMr)
        Client.sendFileName setup.fileName
        Client.postReceive }) holds.client)
      rfl due (by simp [Turn.rank, MessageId.rank]; omega)
  | ready =>
    subst next
    exact holds.client_turn .read false rfl
      (congrArg (fun shape : ClientShape => { shape with poller := do
        Client.sendNextChunk
        Client.postReceive }) holds.client)
      rfl due (by simp [Turn.rank, MessageId.rank]; omega)
  | done =>
    subst next
    exact holds.client_turn .disconnect false rfl
      (congrArg (fun shape : ClientShape => { shape with poller := Prog.call ClientCall.disconnect }) holds.client)
      rfl due (by simp [Turn.rank, MessageId.rank]; omega)

theorem client_read (holds : At setup .read late s)
    (advances : Advances (ClientCall.Does setup.order) (do Client.sendNextChunk; Client.postReceive) s.client p c) :
    Lower setup (rank setup .read late s) { s with client := { c with poller := p } } := by
  obtain ⟨n, ⟨le, inside, whole, rfl⟩, rfl⟩ := advances
  obtain ⟨peer, got, held, ledger⟩ := holds.data
  have length : (s.client.unread.take n).length = n := by simpa using inside
  have size : (Load.chunk got (s.client.unread.take n)).size setup = n.toUInt32 := congrArg Nat.toUInt32 length
  refine holds.client_turn (.post (.chunk got (s.client.unread.take n))) false rfl
    (congrArg (fun shape : ClientShape => { shape with poller := do
      Client.writeRemote n.toUInt32
      Client.postReceive }) holds.client |>.trans ?_) rfl ⟨⟨⟨⟨held.named, held.opened, held.content⟩, ?_, ?_⟩, peer, ?_⟩, ?_⟩ ?_
  · rw [← size]
    rfl
  · change got ++ s.client.unread.take n ++ s.client.unread.drop n = setup.file
    rw [List.append_assoc, List.take_append_drop]
    exact ledger
  · intro none
    have zero : n = 0 := by rw [← length, none, List.length_nil]
    change s.client.unread.drop n = []
    rw [whole zero, List.drop_nil]
  · exact le_of_eq_of_le length le
  · exact Buffer.bytes_store ..
  · have drop : (s.client.unread.drop n).length = s.client.unread.length - n := List.length_drop
    simp only [Turn.rank, Load.bytes, length, drop, Bool.toNat_false]
    have rank := Load.rank_chunk got (s.client.unread.take n) (s.client.unread.length - n)
    have part : (s.client.unread.take n).length ≤ s.client.unread.length := List.length_take_le' ..
    rw [length] at rank part
    omega

theorem client_post {load : Load} (holds : At setup (.post load) late s)
    (advances : Advances (ClientCall.Does setup.order)
      (do Client.writeRemote (load.size setup); Client.postReceive) s.client p c) :
    Lower setup (rank setup (.post load) late s) { s with client := { c with poller := p } } := by
  obtain ⟨reply, rfl, rfl⟩ := advances
  obtain ⟨carried, within⟩ := holds.data
  have peer : s.client.peer = setup.bufferMr := carried.peer
  refine holds.client_turn (.flight load 0) true rfl
    (congrArg (fun shape : ClientShape => { shape with
      poller := Client.postReceive
      sends := shape.sends ++ [Write.mk (load.size setup) (load.imm setup) s.client.peer] }) holds.client |>.trans ?_) rfl
    ⟨carried, within, fun i below => absurd below (Nat.not_lt_zero i), Nat.zero_le _⟩ ?_
  · rw [peer]
    rfl
  · simp only [Turn.rank, Bool.toNat_true]
    omega

theorem client_rest {sends : List Write} {moved : Nat} (holds : At setup turn late s)
    (mode : turn.client setup = .rest sends moved)
    (advances : Advances (ClientCall.Does setup.order) s.client.poller s.client p c) :
    Lower setup (rank setup turn late s) { s with client := { c with poller := p } } := by
  have shape := holds.client
  rw [holds.clientPoller, mode] at advances
  rw [mode] at shape
  cases late with
  | false => exact absurd advances advances_pure
  | true =>
    obtain ⟨reply, rfl, rfl⟩ := advances
    refine holds.client_turn turn false rfl ?_ rfl holds.data (by simp)
    rw [mode]
    exact congrArg (fun shape : ClientShape => { shape with poller := pure (), receives := shape.receives + 1 }) shape

theorem client_call (holds : At setup turn late s)
    (advances : Advances (ClientCall.Does setup.order) s.client.poller s.client p c) :
    Lower setup (rank setup turn late s) { s with client := { c with poller := p } } := by
  cases mode : turn.client setup with
  | rest sends moved => exact client_rest holds mode advances
  | inbox =>
    rw [holds.clientPoller, mode] at advances
    exact absurd advances advances_pure
  | gone =>
    rw [holds.clientPoller, mode] at advances
    exact absurd advances advances_pure
  | runs r =>
    rw [holds.clientPoller] at advances
    cases turn with
    | look id => exact client_look holds advances
    | storePeer =>
      obtain ⟨reply, rfl, rfl⟩ := advances
      have fresh := holds.data
      exact holds.client_turn .storeName false rfl
        (congrArg (fun shape : ClientShape => { shape with poller := do
          Client.sendFileName setup.fileName
          Client.postReceive }) holds.client)
        rfl ⟨⟨fresh.unnamed, fresh.unopened, fresh.unread⟩, rfl⟩ (by simp [Turn.rank]; omega)
    | storeName =>
      obtain ⟨reply, rfl, rfl⟩ := advances
      obtain ⟨fresh, peer⟩ := holds.data
      exact holds.client_turn (.post .name) false rfl
        (congrArg (fun shape : ClientShape => { shape with poller := do
          Client.writeRemote (setup.fileName.length + 1).toUInt32
          Client.postReceive }) holds.client |>.trans (by simp [Turn.client, ClientMode.shape, Load.size, Load.bytes]))
        rfl ⟨⟨fresh, peer, by simpa [Load.bytes] using setup.fits⟩, Buffer.bytes_store ..⟩
        (by simp [Turn.rank, Load.rank, Load.bytes]; omega)
    | read => exact client_read holds advances
    | post load => exact client_post holds advances
    | disconnect =>
      obtain ⟨reply, rfl, rfl⟩ := advances
      exact holds.client_turn .finished false rfl
        (congrArg (fun shape : ClientShape => { shape with poller := pure (), disconnected := true }) holds.client)
        rfl holds.data (by simp [Turn.rank]; omega)
    | _ => cases mode

end RdmaExps.Transfer
