import RdmaExps.Transfer.Delivery

namespace RdmaExps.Transfer

open RdmaExps.Python RdmaExps.Verbs RdmaExps.Wire RdmaExps.Run

variable {setup : Setup} {s t : State} {files : List Byte → Option (List Byte)}

/-- The invariant of the runs in which the server's host has room for the file, which is not there yet. -/
structure Fine (setup : Setup) (files : List Byte → Option (List Byte)) (turn : Turn) (late : Bool) (s : State) : Prop where
  holds : At setup turn late s
  others : ∀ name, name ≠ setup.target → s.server.files name = files name
  absent : s.server.fd = none → s.server.files setup.target = none
  running : ∀ error, turn ≠ .failed error

theorem works_sound : Sound ServerCall.Works := fun _ _ _ _ works => works.1

theorem news_ne_nil {Wr : Type} {qp : QueuePair Wr Wc} {wc : Wc} (some : news qp = [wc]) :
    ∃ first rest, qp.completions = first :: rest := by
  cases completions : qp.completions with
  | nil => simp [news, completions] at some
  | cons first rest => exact ⟨first, rest, rfl⟩

theorem Step.mono {does : ServerBehaviour} (sound : Sound does) (step : Step setup does s t) :
    Step setup ServerCall.Does s t := by
  cases step with
  | clientCall q c advances => exact .clientCall s q c advances
  | clientPoll wc rest idle first => exact .clientPoll s wc rest idle first
  | serverEvents q v advances => exact .serverEvents s q v (advances.mono sound)
  | serverCall q v advances => exact .serverCall s q v (advances.mono sound)
  | serverPoll wc rest idle first => exact .serverPoll s wc rest idle first
  | hangUp gone idle listening => exact .hangUp s gone idle listening
  | place w k first right room further bound => exact .place s w k first right room further bound
  | deliverWrite w first whole posted => exact .deliverWrite s w first whole posted
  | deliverSend some posted => exact .deliverSend s some posted
  | ackClient some => exact .ackClient s some
  | ackServer some => exact .ackServer s some

variable {turn : Turn} {late : Bool}

theorem Fine.server_progress {q : Server Unit} {v : ServerState} (fine : Fine setup files turn late s)
    (advances : Advances ServerCall.Works (turn.server setup).poller s.server q v) : ∃ t, Step setup ServerCall.Works s t :=
  ⟨_, .serverCall s q v (fine.holds.serverPoller ▸ advances)⟩

theorem Fine.events_progress {q : Server Unit} {v : ServerState} (fine : Fine setup files turn late s)
    (advances : Advances ServerCall.Works (turn.server setup).events s.server q v) : ∃ t, Step setup ServerCall.Works s t :=
  ⟨_, .serverEvents s q v (fine.holds.serverEvents ▸ advances)⟩

theorem Fine.client_progress {p : Client Unit} {c : ClientState} (fine : Fine setup files turn late s)
    (advances : Advances (ClientCall.Does setup.order) ((turn.client setup).shape late).poller s.client p c) :
    ∃ t, Step setup ServerCall.Works s t :=
  ⟨_, .clientCall s p c (fine.holds.clientPoller ▸ advances)⟩

theorem Fine.message_progress {id : MessageId} (fine : Fine setup files (.message id) late s) :
    ∃ t, Step setup ServerCall.Works s t := by
  cases late with
  | true => exact fine.client_progress ⟨(), rfl, rfl⟩
  | false =>
    have sends : s.server.qp.sends = [()] := congrArg ServerShape.sends fine.holds.server
    have posted : s.client.qp.receives = 1 := congrArg ClientShape.receives fine.holds.client
    exact ⟨_, .deliverSend s (by simp [sends]) (by simp [posted])⟩

theorem Fine.flight_progress {load : Load} {moved : Nat} (fine : Fine setup files (.flight load moved) late s) :
    ∃ t, Step setup ServerCall.Works s t := by
  have shape := fine.holds.client
  have client : s.client.qp.sends = [⟨load.size setup, load.imm setup, setup.bufferMr⟩] ∧ s.client.qp.moved = moved := by
    cases late with
    | true => exact ⟨congrArg ClientShape.sends shape, congrArg ClientShape.moved shape⟩
    | false => exact ⟨congrArg ClientShape.sends shape, congrArg ClientShape.moved shape⟩
  obtain ⟨sends, same⟩ := client
  have first : s.client.qp.sends.head? = some ⟨load.size setup, load.imm setup, setup.bufferMr⟩ := by rw [sends]; rfl
  obtain ⟨carried, -, -, le⟩ := fine.holds.data
  have size := Load.size_toNat carried
  by_cases whole : moved = (load.size setup).toNat
  · have posted : s.server.qp.receives = 1 := congrArg ServerShape.receives fine.holds.server
    exact ⟨_, .deliverWrite s _ first (same.trans whole) (by simp [posted])⟩
  · exact ⟨_, .place s _ (load.size setup).toNat first fine.holds.bufferMr.symm (size ▸ carried.small)
      (by omega) (Nat.le_refl _)⟩

theorem Fine.progress (fine : Fine setup files turn late s) :
    (s.client.disconnected = true ∧ s.server.closed = true ∧
      s.server.files = Function.update files setup.target (some setup.file)) ∨ ∃ t, Step setup ServerCall.Works s t := by
  have data := fine.holds.data
  cases turn with
  | closed =>
    left
    refine ⟨congrArg ClientShape.disconnected fine.holds.client, congrArg ServerShape.closed fine.holds.server,
      funext fun name => ?_⟩
    by_cases same : name = setup.target
    · rw [same, Function.update_self]
      exact data.1.content
    · rw [Function.update_of_ne same, fine.others name same]
  | accept | setId | setMr | greet | hungUp => exact .inr (fine.events_progress ⟨(), ⟨rfl, trivial⟩, rfl⟩)
  | message id => exact .inr fine.message_progress
  | inbox id =>
    have news : news s.client.qp = [.received] := congrArg ClientShape.news fine.holds.client
    obtain ⟨wc, rest, first⟩ := news_ne_nil news
    exact .inr ⟨_, .clientPoll s wc rest (congrArg ClientShape.poller fine.holds.client) first⟩
  | look id => exact .inr (fine.client_progress ⟨s.client.msg, ⟨rfl, rfl⟩, rfl⟩)
  | storePeer | storeName | post load | disconnect => exact .inr (fine.client_progress ⟨(), rfl, rfl⟩)
  | read =>
    refine .inr (fine.client_progress ⟨min BUFFER_SIZE s.client.unread.length,
      ⟨Nat.min_le_left .., Nat.min_le_right .., fun zero => ?_, rfl⟩, rfl⟩)
    have none : min BUFFER_SIZE s.client.unread.length = 0 := zero
    simp only [BUFFER_SIZE] at none
    apply List.length_eq_zero_iff.mp
    omega
  | flight load moved => exact .inr fine.flight_progress
  | arrived load =>
    have news : news s.server.qp = [.receivedImm (load.imm setup)] := congrArg ServerShape.news fine.holds.server
    obtain ⟨wc, rest, first⟩ := news_ne_nil news
    exact .inr ⟨_, .serverPoll s wc rest fine.holds.serverPoller first⟩
  | check load => exact .inr (fine.server_progress ⟨_, ⟨⟨rfl, rfl⟩, trivial⟩, rfl⟩)
  | copyName | rearm | setReady | setDone | reply id => exact .inr (fine.server_progress ⟨(), ⟨rfl, trivial⟩, rfl⟩)
  | openNew =>
    have name : s.server.name = setup.target := data.1.name
    have absent : s.server.files s.server.name = none := by
      rw [name]
      exact fine.absent data.2.1
    exact .inr (fine.server_progress ⟨true, ⟨⟨absent, rfl⟩, .inl rfl⟩, rfl⟩)
  | write got bytes =>
    have held := data.1.due.1
    exact .inr (fine.server_progress ⟨_, ⟨⟨Nat.le_refl _, congrArg ServerShape.closed fine.holds.server, _, _, held.opened,
      held.content, rfl⟩, rfl⟩, rfl⟩)
  | failed error => exact absurd rfl (fine.running error)
  | finished =>
    exact .inr ⟨_, .hangUp s (congrArg ClientShape.disconnected fine.holds.client) fine.holds.serverEvents
      (congrArg ServerShape.hungUp fine.holds.server)⟩

/-- No call fails where the file can be created and written. -/
theorem Fine.no_throw {q : Server Unit} {v : ServerState} (fine : Fine setup files turn late s)
    (advances : Advances ServerCall.Works s.server.poller s.server q v) (error : String) : q ≠ throw error := by
  rw [fine.holds.serverPoller] at advances
  have data := fine.holds.data
  cases turn with
  | check load =>
    obtain ⟨reply, -, rfl⟩ := advances
    cases reply <;> nofun
  | openNew =>
    obtain ⟨reply, ⟨-, works⟩, next⟩ := advances
    have name : s.server.name = setup.target := data.1.name
    have absent : s.server.files s.server.name = none := by
      rw [name]
      exact fine.absent data.2.1
    cases works.resolve_right (not_not.mpr absent)
    rw [next]
    nofun
  | write got bytes =>
    obtain ⟨n, ⟨-, whole⟩, next⟩ := advances
    have same : q = Server.rearm := next.trans (if_neg (not_not.mpr whole))
    rw [same]
    nofun
  | copyName | rearm | setReady | setDone | reply id =>
    obtain ⟨reply, -, rfl⟩ := advances
    nofun
  | failed e => exact absurd advances advances_throw
  | _ => exact absurd advances advances_pure

theorem Inv.fd (inv : Inv setup s) : s.server.fd = none ∨ s.server.fd = some setup.target := by
  rcases inv.ledger with unopened | ⟨rest, got, holds, -⟩
  · exact .inl unopened
  · exact .inr holds.opened

/-- One call of the server leaves every file but its own alone. -/
theorem files_server {call : ServerCall} {reply : call.Reply} {v v' : ServerState} {target : List Byte}
    (does : call.Does v reply v') (before : v.fd = none ∨ v.fd = some target) (after : v'.fd = none ∨ v'.fd = some target) :
    (∀ name, name ≠ target → v'.files name = v.files name) ∧ (v'.fd = none → v.fd = none ∧ v'.files = v.files) := by
  cases call with
  | hasName =>
    obtain ⟨-, rfl⟩ := does
    exact ⟨fun _ _ => rfl, fun none => ⟨none, rfl⟩⟩
  | openNew =>
    cases reply with
    | false =>
      cases does
      exact ⟨fun _ _ => rfl, fun none => ⟨none, rfl⟩⟩
    | true =>
      obtain ⟨-, rfl⟩ := does
      obtain own := Option.some.inj (after.resolve_left nofun)
      exact ⟨fun name other => Function.update_of_ne (own ▸ other) .., nofun⟩
  | write size =>
    obtain ⟨-, -, name, old, opened, -, rfl⟩ := does
    rw [opened] at before
    obtain rfl := Option.some.inj (before.resolve_left nofun)
    exact ⟨fun name other => Function.update_of_ne other .., fun none => nomatch opened.symm.trans none⟩
  | _ =>
    cases does
    exact ⟨fun _ _ => rfl, fun none => ⟨none, rfl⟩⟩

theorem files_advances {does : ServerBehaviour} {p q : Server Unit} {v v' : ServerState} (sound : Sound does)
    (inv : Inv setup s) (advances : Advances does p s.server q v) (inv' : Inv setup { s with server := v' })
    (fd : v'.fd = v.fd) (files : v'.files = v.files) :
    (∀ name, name ≠ setup.target → v'.files name = s.server.files name) ∧
      (v'.fd = none → s.server.fd = none ∧ v'.files = s.server.files) := by
  obtain ⟨call, reply, does⟩ := advances.exists_does
  rw [fd, files]
  exact files_server (sound _ _ _ _ does) inv.fd (fd ▸ inv'.fd)

/-- No step of the connection changes a file that it has not created. -/
theorem files_step {does : ServerBehaviour} (sound : Sound does) (inv : Inv setup s) (step : Step setup does s t) :
    (∀ name, name ≠ setup.target → t.server.files name = s.server.files name) ∧
      (t.server.fd = none → s.server.fd = none ∧ t.server.files = s.server.files) := by
  obtain ⟨turn, late, holds⟩ := inv
  obtain ⟨turn', late', holds', -⟩ := step_lower sound holds step
  cases step with
  | serverEvents q v advances => exact files_advances sound ⟨_, _, holds⟩ advances ⟨_, _, holds'⟩ rfl rfl
  | serverCall q v advances => exact files_advances sound ⟨_, _, holds⟩ advances ⟨_, _, holds'⟩ rfl rfl
  | _ => exact ⟨fun _ _ => rfl, fun none => ⟨none, rfl⟩⟩

theorem Server.onCompletion_ne_throw {order : ByteOrder} {wc : Wc} {error : String} :
    Server.onCompletion order wc ≠ throw error := by
  cases wc with
  | receivedImm imm =>
    rw [Server.onCompletion_receivedImm]
    split <;> nofun
  | _ => nofun

theorem At.failed_of_throw {error : String} (holds : At setup turn late s) (thrown : s.server.poller = throw error) :
    ∃ e, turn = .failed e := by
  rw [holds.serverPoller] at thrown
  cases turn with
  | failed e => exact ⟨e, rfl⟩
  | _ => cases thrown

theorem does_poller {call : ServerCall} {reply : call.Reply} {v v' : ServerState} (does : call.Does v reply v') :
    v'.poller = v.poller := by
  cases call with
  | hasName => exact congrArg ServerState.poller does.2
  | openNew =>
    cases reply with
    | false => exact congrArg ServerState.poller does
    | true =>
      obtain ⟨-, rfl⟩ := does
      rfl
  | write size =>
    obtain ⟨-, -, target, old, -, -, rfl⟩ := does
    rfl
  | _ =>
    cases does
    rfl

theorem Fine.step (fine : Fine setup files turn late s) (step : Step setup ServerCall.Works s t) :
    ∃ turn' late', Fine setup files turn' late' t ∧ rank setup turn' late' t < rank setup turn late s := by
  obtain ⟨others, absent⟩ := files_step works_sound ⟨_, _, fine.holds⟩ step
  obtain ⟨turn', late', holds', lower⟩ := step_lower works_sound fine.holds step
  refine ⟨turn', late', ⟨holds', fun name other => (others name other).trans (fine.others name other), fun none => ?_,
    fun error failed => ?_⟩, lower⟩
  · obtain ⟨before, same⟩ := absent none
    rw [same]
    exact fine.absent before
  · subst failed
    have poller := holds'.serverPoller
    cases step with
    | serverCall q v advances => exact fine.no_throw advances error poller
    | serverPoll wc rest idle first => exact Server.onCompletion_ne_throw poller
    | serverEvents q v advances =>
      obtain ⟨call, reply, works⟩ := advances.exists_does
      obtain ⟨e, failed⟩ := fine.holds.failed_of_throw ((does_poller works.1).symm.trans poller)
      exact fine.running e failed
    | _ =>
      obtain ⟨e, failed⟩ := fine.holds.failed_of_throw poller
      exact fine.running e failed

theorem Fine.leads (fine : Fine setup files turn late s) :
    Leads (Step setup ServerCall.Works) (fun t => t.client.disconnected = true ∧ t.server.closed = true ∧
      t.server.files = Function.update files setup.target (some setup.file)) s := by
  apply leads_of_rank (fun n t => ∃ turn late, Fine setup files turn late t ∧ n = rank setup turn late t)
  · rintro n t ⟨turn, late, fine, -⟩
    exact fine.progress
  · rintro n t u ⟨turn, late, fine, rfl⟩ step
    obtain ⟨turn', late', fine', lower⟩ := fine.step step
    exact ⟨_, lower, turn', late', fine', rfl⟩
  · exact ⟨_, _, fine, rfl⟩

theorem Starts.fine (starts : Starts setup s) (absent : s.server.files setup.target = none) :
    Fine setup s.server.files .accept false s :=
  ⟨starts.at, fun _ _ => rfl, fun _ => absent, nofun⟩

/-- A transfer never runs for ever, whatever fails. -/
theorem transfer_steps_le (starts : Starts setup s) {n : Nat} (chain : Chain (Step setup ServerCall.Does) n s t) :
    n ≤ 53 + setup.fileName.length + 100 * setup.file.length := by
  have start : rank setup .accept false s = 53 + setup.fileName.length + 100 * setup.file.length := by
    simp [rank, Turn.rank, State.pending, QueuePair.pending, starts.clientQp, starts.serverQp, starts.unread,
      QueuePair.new]
  rw [← start]
  refine chain_le_rank (fun n t => ∃ turn late, At setup turn late t ∧ n = rank setup turn late t) ?_
    ⟨_, _, starts.at, rfl⟩ chain
  rintro n t u ⟨turn, late, holds, rfl⟩ step
  obtain ⟨turn', late', holds', lower⟩ := step_lower (fun _ _ _ _ does => does) holds step
  exact ⟨_, lower, turn', late', holds', rfl⟩

theorem transfer_steps_le_sample : 1 ≤ 53 + sample.fileName.length + 100 * sample.file.length :=
  transfer_steps_le (sampleStart_starts fun _ => none)
    ⟨_, .serverEvents _ _ _ ⟨(), rfl, rfl⟩, rfl⟩

end RdmaExps.Transfer
