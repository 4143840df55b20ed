import PositionRelay.Proofs.Network.Stream

/-!
# Following a stream

A connection follows its stream if what it has merged and asked for so far is what the stream says so
far, and what it would read from here on is what the stream says from here on (`Follows`). Bytes that
arrive, the end of the stream, the turns of the write side and undisturbed turns of the read side all
keep it so. How the bytes are cut shows in none of this: a connection that follows is compared with
the whole stream, for every way in which the stream may go on.
-/
namespace PositionRelay

/-- What the read side is doing. A connection that has not been run is about to wait for a length. -/
def Phase.reader? : Phase → Option Reader
  | fresh => some (.length [] {})
  | running reader _ => some reader
  | finished why _ => some (.stopped why)
  | _ => none

/-- Why the read side has stopped, if it has. -/
def Phase.readStop? (p : Phase) : Option Stop :=
  match p.reader? with
  | some (.stopped why) => some why
  | _ => none

/-- The read side has not come to its end; it may not have begun. -/
def Phase.canRead : Phase → Bool
  | fresh => true
  | running reader _ => reader.live == 1
  | _ => false

theorem Phase.canRead_of_isLive {p : Phase} (h : p.isLive .read = true) : p.canRead = true := by
  cases p <;> simp_all [canRead, isLive]

namespace Connection

theorem canRead_become (k : Connection) (reader : Reader) (writer : Writer) :
    (k.become reader writer).phase.canRead = (reader.live == 1) := by
  cases reader <;> cases writer <;> rfl

/-- Once it has begun, a read side that can read is live. -/
theorem Entered.isLive_of_canRead {k : Connection} (h : k.Entered)
    (hcan : k.phase.canRead = true) : k.phase.isLive .read = true := by
  obtain ⟨j, reader, writer, rfl⟩ := h
  rw [canRead_become] at hcan
  rw [isLive_become_read]
  exact hcan

theorem reader?_become (k : Connection) (reader : Reader) (writer : Writer) :
    (k.become reader writer).phase.reader? = some reader := by
  cases reader <;> cases writer <;> rfl

theorem config_become (k : Connection) (reader : Reader) (writer : Writer) :
    (k.become reader writer).config = k.config := by
  cases reader <;> cases writer <;> rfl

theorem inbound_become_of_live {k : Connection} {reader : Reader} (h : reader.live = 1)
    (writer : Writer) : (k.become reader writer).inbound = k.inbound := by
  cases reader with
  | stopped => cases h
  | length => cases writer <;> rfl
  | payload => cases writer <;> rfl

theorem closed_become {k : Connection} (h : k.inbound.closed = true) (reader : Reader)
    (writer : Writer) : (k.become reader writer).inbound.closed = true := by
  cases reader <;> cases writer <;> simp [become, closePipes, Pipe.close, h]

/-- What was heard from a peer, and what its connection did. -/
structure Account where
  heard : Bytes := []
  /-- The peer has ended its stream. -/
  ended : Bool := false
  merged : List Record := []
  sent : List Request := []
deriving DecidableEq, Repr

def Account.plus (a b : Account) : Account where
  heard := a.heard ++ b.heard
  ended := a.ended || b.ended
  merged := a.merged ++ b.merged
  sent := a.sent ++ b.sent

@[simp] theorem Account.plus_empty (a : Account) : a.plus {} = a := by simp [plus]

@[simp] theorem Account.plus_heard (a : Account) (bytes : Bytes) :
    a.plus { heard := bytes } = { a with heard := a.heard ++ bytes } := by simp [plus]

@[simp] theorem Account.plus_ended (a : Account) :
    a.plus { ended := true } = { a with ended := true } := by simp [plus]

@[simp] theorem Account.plus_done (a : Account) (us : List Record) (requests : List Request) :
    a.plus { merged := us, sent := requests } =
      { a with merged := a.merged ++ us, sent := a.sent ++ requests } := by simp [plus]

@[simp] theorem Account.plus_sent (a : Account) (requests : List Request) :
    a.plus { sent := requests } = { a with sent := a.sent ++ requests } := by simp [plus]

/-- The connection has done what the stream says so far, and will do the rest if it goes on reading
from where it is. -/
structure Follows (id : ClientId) (a : Account) (f : Flags) (k : Connection) (reader : Reader) :
    Prop where
  stream : ∀ more ended, (k.inbound.closed = true → more = []) → (a.ended = true → ended = true) →
    readStream k.config.payloadLimit ended (a.heard ++ more) =
      (reader.resume k.config.payloadLimit ended (k.inbound.bytes ++ more)).prepend a.merged
  fits : reader.Fits
  live : reader.live = 1 → k.inbound.closed = a.ended ∧
    (f.exitRead = false → f.closing = false ∧ a.sent = a.merged.map fun _ => .broadcast)
  stopped : reader.live = 0 → f.closing = true ∧ (∃ why, reader = .stopped (.failed why)) ∧
    a.sent = (a.merged.map fun _ => .broadcast) ++ [.leave id]

section
variable {id : ClientId} {a : Account} {f g : Flags} {k j : Connection} {reader : Reader}

theorem follows_fresh (id : ClientId) (config : Config) (inbound outbound : Pipe)
    (hbytes : inbound.bytes = []) (hclosed : inbound.closed = false) :
    Follows id {} .clear { config, inbound, outbound } (.length [] {}) := by
  refine ⟨?_, Reader.fits_nil _, ?_, ?_⟩
  · intro more ended _ _
    rw [hbytes]
    rfl
  · intro _
    exact ⟨hclosed, fun _ => ⟨rfl, rfl⟩⟩
  · intro hl
    cases hl

/-- The peer sends bytes. -/
theorem Follows.deliver (h : Follows id a f k reader) (hopen : k.inbound.closed = false)
    (bytes : Bytes) :
    Follows id { a with heard := a.heard ++ bytes } f { k with inbound := k.inbound.append bytes }
      reader := by
  refine ⟨?_, h.fits, h.live, h.stopped⟩
  intro more ended _ hended
  have := h.stream (bytes ++ more) ended (by simp [hopen]) hended
  simpa [Pipe.append] using this

/-- The peer ends its stream. -/
theorem Follows.close (h : Follows id a f k reader) (hconfig : j.config = k.config)
    (hinbound : j.inbound = k.inbound.close) :
    Follows id { a with ended := true } f j reader := by
  refine ⟨?_, h.fits, ?_, h.stopped⟩
  · intro more ended hmore hended
    rw [hconfig, hinbound]
    rw [hinbound] at hmore
    exact h.stream more ended (fun _ => hmore rfl) fun _ => hended rfl
  · intro hl
    rw [hinbound]
    exact ⟨rfl, (h.live hl).2⟩

/-- Nothing changes on the side of the peer, and the flags stay or tell the read side to stop. -/
theorem Follows.keep (h : Follows id a f k reader) (hconfig : j.config = k.config)
    (hbytes : j.inbound.bytes = k.inbound.bytes)
    (hclosed : k.inbound.closed = true → j.inbound.closed = true)
    (hlive : reader.live = 1 → j.inbound.closed = k.inbound.closed)
    (hflags : g = f ∨ (g.exitRead = true ∧ (f.closing = true → g.closing = true))) :
    Follows id a g j reader := by
  refine ⟨?_, h.fits, ?_, ?_⟩
  · intro more ended hmore hended
    rw [hconfig, hbytes]
    exact h.stream more ended (fun hk => hmore (hclosed hk)) hended
  · intro hl
    obtain ⟨hsame, hquiet⟩ := h.live hl
    refine ⟨(hlive hl).trans hsame, fun hexit => ?_⟩
    rcases hflags with rfl | ⟨htold, -⟩
    · exact hquiet hexit
    · rw [htold] at hexit
      cases hexit
  · intro hl
    obtain ⟨hclosing, hrest⟩ := h.stopped hl
    refine ⟨?_, hrest⟩
    rcases hflags with rfl | ⟨-, hkept⟩
    · exact hclosing
    · exact hkept hclosing

/-- The connection is run; its wait for the first length begins. -/
theorem Follows.start (h : Follows id a f k reader) (hfresh : k.phase = .fresh) (since : Moment)
    (hreader : k.phase.reader? = some reader) :
    Follows id a f { k with phase := .running (.length [] since) .idle } (.length [] since) := by
  rw [hfresh] at hreader
  cases hreader
  exact ⟨h.stream, Reader.fits_nil since, h.live, fun hl => by cases hl⟩

/-- A turn that nothing disturbs does the next piece of what the stream says. -/
theorem Follows.read {c : Client} {writer : Writer} {us : List Record} {t : Turn}
    (h : Follows id a c.flags k reader) (hlive : reader.live = 1) (hexit : c.exitRead = false)
    (ht : Reads k id c reader writer us t) :
    ∃ reader', t.connection.phase.reader? = some reader' ∧
      Follows id { a with merged := a.merged ++ us, sent := a.sent ++ t.requests } t.client.flags
        t.connection reader' := by
  obtain ⟨hclosed, hquiet⟩ := h.live hlive
  obtain ⟨hclosing, hsent⟩ := hquiet hexit
  cases ht with
  | onward j reader' us config closed live fits rest =>
      refine ⟨reader', reader?_become .., ?_, fits, ?_, ?_⟩
      · intro more ended hmore hended
        change (j.become reader' writer).inbound.closed = true → more = [] at hmore
        rw [inbound_become_of_live live, closed] at hmore
        have hnext := rest k.config.payloadLimit ended more rfl
        rw [config_become, config, inbound_become_of_live live, h.stream more ended hmore hended,
          hnext, Reading.prepend_prepend]
      · intro _
        refine ⟨?_, fun _ => ⟨?_, ?_⟩⟩
        · change (j.become reader' writer).inbound.closed = a.ended
          rw [inbound_become_of_live live, closed, hclosed]
        · rw [flags_merges]
          exact hclosing
        · simp [hsent]
      · intro hl
        rw [live] at hl
        cases hl
  | finished j why config closed rest =>
      have hopen : c.closing = false := hclosing
      refine ⟨.stopped (.failed why), reader?_become .., ?_, trivial, ?_, ?_⟩
      · intro more ended hmore hended
        have hnothing : k.inbound.closed = true → more = [] := by
          intro hk
          exact hmore (closed_become (closed.trans hk) _ writer)
        have hover := rest k.config.payloadLimit ended more rfl fun hk =>
          ⟨hnothing hk, hended (hclosed.symm.trans hk)⟩
        change readStream (j.become _ writer).config.payloadLimit ended _ = _
        rw [config_become, config, h.stream more ended hnothing hended, hover, List.append_nil]
        rfl
      · intro hl
        cases hl
      · intro _
        refine ⟨Client.closing_fail c .read, ⟨why, rfl⟩, ?_⟩
        simp [failReading, farewell, hopen, hsent]

/-- A turn of the write side. If it fails while the read side goes on, that side is told to stop. -/
theorem Follows.write {c : Client} {t : Turn} (h : Follows id a c.flags k reader)
    (ht : WriteTurn k id c reader t) {sent : List Request}
    (hsent : ∀ request ∈ sent, request ∈ t.requests) :
    t.connection.phase.reader? = some reader ∧
      Follows id { a with sent := a.sent ++ sent } t.client.flags t.connection reader := by
  -- Whatever the write side does, the pipe from the peer stays as it is while the read side is live.
  have hkeep : ∀ (i : Connection) (writer : Writer) (g : Flags), i.config = k.config →
      i.inbound = k.inbound →
      (g = c.flags ∨ (g.exitRead = true ∧ (c.flags.closing = true → g.closing = true))) →
      Follows id a g (i.become reader writer) reader := by
    intro i writer g hconfig hinbound hflags
    refine h.keep ((config_become ..).trans hconfig) ?_ ?_ ?_ hflags
    · rw [inbound_bytes_become, hinbound]
    · intro hk
      exact closed_become (by rw [hinbound]; exact hk) reader writer
    · intro hl
      rw [inbound_become_of_live hl, hinbound]
  have hsilent : t.requests = [] → sent = [] := by
    intro hnone
    rw [hnone] at hsent
    exact List.eq_nil_iff_forall_not_mem.mpr fun request hr => by cases hsent request hr
  cases ht with
  | told told =>
      rw [hsilent rfl, List.append_nil]
      exact ⟨reader?_become .., hkeep k _ _ rfl rfl (.inl rfl)⟩
  | onward outbound mailbox writer live =>
      rw [hsilent rfl, List.append_nil]
      exact ⟨reader?_become .., hkeep { k with outbound } _ _ rfl rfl (.inl rfl)⟩
  | failed why =>
      refine ⟨reader?_become .., ?_⟩
      by_cases hclosing : c.closing = true
      · have hquiet : (k.failWriting id c reader why).requests = [] := by
          simp [failWriting, farewell, hclosing]
        have hflags : ((c.fail .write).closeMailbox).flags = c.flags := by
          rw [Client.flags_closeMailbox]
          exact Client.flags_fail_of_closing hclosing .write
        rw [hsilent hquiet, List.append_nil]
        exact hkeep k _ _ rfl rfl (.inl hflags)
      · have hopen : c.flags.closing = false := Bool.eq_false_iff.mpr hclosing
        have htold : ((c.fail .write).closeMailbox).flags.exitRead = true :=
          Client.tells_fail hopen .write
        have hnext := hkeep k (.stopped (.failed why)) ((c.fail .write).closeMailbox).flags rfl rfl
          (.inr ⟨htold, fun hc => by rw [hopen] at hc; cases hc⟩)
        refine ⟨hnext.stream, hnext.fits, ?_, ?_⟩
        · intro hl
          refine ⟨(hnext.live hl).1, fun hexit => ?_⟩
          cases htold.symm.trans hexit
        · intro hl
          have := (h.stopped hl).1
          rw [hopen] at this
          cases this

/-- The account is the one of the stream as it has come: every update has been merged and announced,
and if reading has ended, the connection has asked once to be removed. -/
def Account.Complete (a : Account) (id : ClientId) (r : Reading) : Prop :=
  a.merged = r.updates ∧
    a.sent = (r.updates.map fun _ => .broadcast) ++ if r.ending.isSome then [.leave id] else []

theorem Follows.complete_of_waiting (h : Follows id a f k reader) (hlive : reader.live = 1)
    (hexit : f.exitRead = false) (hbytes : k.inbound.bytes = [])
    (hopen : k.inbound.closed = false) :
    a.Complete id (readStream k.config.payloadLimit a.ended a.heard) ∧
      (readStream k.config.payloadLimit a.ended a.heard).ending = none := by
  obtain ⟨hclosed, hquiet⟩ := h.live hlive
  have hended : a.ended = false := hclosed.symm.trans hopen
  have hstream := h.stream [] false (fun _ => rfl) (by simp [hended])
  rw [hbytes, List.append_nil, List.append_nil, Reader.resume_nothing _ hlive h.fits] at hstream
  rw [hended, hstream]
  refine ⟨⟨?_, ?_⟩, rfl⟩
  · simp [Reading.prepend]
  · simp [Reading.prepend, (hquiet hexit).2]

theorem Follows.complete_of_stopped (h : Follows id a f k reader) (hstopped : reader.live = 0) :
    ∃ why, reader = .stopped (.failed why) ∧
      a.Complete id (readStream k.config.payloadLimit a.ended a.heard) ∧
      (readStream k.config.payloadLimit a.ended a.heard).ending = some why := by
  obtain ⟨-, ⟨why, rfl⟩, hsent⟩ := h.stopped hstopped
  have hstream := h.stream [] a.ended (fun _ => rfl) fun hended => hended
  rw [List.append_nil] at hstream
  rw [hstream]
  refine ⟨why, rfl, ⟨?_, ?_⟩, rfl⟩
  · simp [Reading.prepend, Reader.resume]
  · simp [Reading.prepend, Reader.resume, hsent]

end

end Connection
end PositionRelay
