import PositionRelay.Proofs.Network.Feed

/-!
# The identifiers of a whole run

Whatever else goes on, the calls that build a client are the only ones that use the counter. One with
an invalid configuration fails with the first thing that is wrong and leaves everything as it was
(`accept_of_violations`). The others receive consecutive identifiers in the order of the calls, from the
first one on, until the largest one has been issued; after that all of them fail
(`identifiers_issued`). The invariant is `Counts`: the identifiers issued so far are consecutive, and the
counter stands behind the last one or has come to its end.
-/
namespace PositionRelay

/-- Everything that is wrong with a configuration, in the order in which it is checked. -/
def Config.violations (c : Config) : List ConfigError :=
  (if c.mailboxCapacity = 0 then [.zeroMailboxCapacity] else []) ++
    (([Deadline.idleRead, .burstRead, .write].filter fun d => c.limitOf d == .zero).map
      ConfigError.zeroTimeout ++
    ((if c.spawnExtent.isFinite && c.spawnExtent.isPositive then []
      else [.invalidSpawnExtent c.spawnExtent]) ++
    if c.payloadLimit < Wire.countLength + Wire.recordLength then
      [.payloadLimitTooSmall c.payloadLimit]
    else []))

theorem Config.validate_eq (c : Config) :
    c.validate = c.violations.head?.elim (.ok ()) .error := by
  unfold validate violations
  rw [← List.head?_filter]
  by_cases hcapacity : c.mailboxCapacity = 0
  · simp [hcapacity]
  · rw [if_neg hcapacity, if_neg hcapacity, List.nil_append]
    cases [Deadline.idleRead, .burstRead, .write].filter fun d => c.limitOf d == .zero with
    | cons d rest => rfl
    | nil =>
        cases hextent : c.spawnExtent.isFinite && c.spawnExtent.isPositive with
        | false => rfl
        | true =>
            by_cases hlimit : c.payloadLimit < Wire.countLength + Wire.recordLength
            · simp [hlimit]
            · simp [hlimit]

theorem Config.validate_eq_ok_iff {c : Config} : c.validate = .ok () ↔ c.violations = [] := by
  rw [validate_eq]
  cases c.violations <;> simp

namespace Network

section
variable {n : Network} {config : Config} {e : ConfigError} (buffer drawX drawY : Nat)

theorem accept_of_violations (h : config.violations.head? = some e) :
    n.accept config buffer drawX drawY = .error (.config e) := by
  have hinvalid : config.validate = .error e := by
    rw [Config.validate_eq, h]
    rfl
  rw [accept, hinvalid]

theorem accept_of_valid (h : config.violations = []) (hpos : 0 < n.ids.upcoming) :
    n.accept config buffer drawX drawY =
      .ok (n.ids.upcoming, n.built config buffer drawX drawY) := by
  rw [accept, Config.validate_eq_ok_iff.mpr h]
  simp only [IdentifierSource.issue?, if_pos hpos]
  rfl

theorem accept_of_exhausted (h : config.violations = []) (hend : n.ids.upcoming ≤ 0) :
    n.accept config buffer drawX drawY = .error .identifiersExhausted := by
  have hpos : ¬ 0 < n.ids.upcoming := Int32.not_lt.mpr hend
  rw [accept, Config.validate_eq_ok_iff.mpr h]
  simp only [IdentifierSource.issue?, if_neg hpos]

/-- A call succeeds, or it fails and every other call with a valid configuration would. -/
theorem accept_cases (n : Network) (config : Config) (buffer drawX drawY : Nat) :
    (config.violations = [] ∧ 0 < n.ids.upcoming ∧
        n.accept config buffer drawX drawY =
          .ok (n.ids.upcoming, n.built config buffer drawX drawY)) ∨
      ∃ why, n.accept config buffer drawX drawY = .error why ∧
        (config.violations = [] → n.ids.upcoming ≤ 0) := by
  cases hviolations : config.violations with
  | cons e rest =>
      have hfirst : config.violations.head? = some e := by rw [hviolations]; rfl
      exact .inr ⟨_, accept_of_violations buffer drawX drawY hfirst, nofun⟩
  | nil =>
      by_cases hpos : 0 < n.ids.upcoming
      · exact .inl ⟨rfl, hpos, accept_of_valid buffer drawX drawY hviolations hpos⟩
      · have hend := Int32.not_lt.mp hpos
        exact .inr ⟨_, accept_of_exhausted buffer drawX drawY hviolations hend, fun _ => hend⟩

theorem make_of_error {why : ConnectionError}
    (h : n.accept config buffer drawX drawY = .error why) :
    n.make (.build config buffer drawX drawY) = n := by
  rw [make, h]

end

/-- A call with a configuration that nothing is wrong with. -/
def Event.isValidBuild : Event → Bool
  | .move (.build config _ _ _) => config.violations.isEmpty
  | _ => false

/-- Nothing else uses the counter. -/
theorem ids_make_of_ne_build (n : Network) {move : Move}
    (h : ∀ config buffer drawX drawY, move ≠ .build config buffer drawX drawY) :
    (n.make move).ids = n.ids := by
  cases move with
  | build config buffer drawX drawY => exact absurd rfl (h config buffer drawX drawY)
  | start id =>
      unfold make run
      dsimp only
      split
      · split
        · simp
        · simp
      · rfl
  | discard id =>
      unfold make discard
      dsimp only
      split
      · simp
      · rfl
  | deliver id bytes =>
      unfold make deliver
      dsimp only
      split
      · simp
      · rfl
  | withdraw id count => exact ids_modifyConnection ..
  | endStream id => exact ids_modifyConnection ..
  | hangUp id => exact ids_modifyConnection ..
  | disconnect id => exact ids_modifyClient ..
  | capture id => exact ids_modifyClient ..
  | offer id batch => exact ids_modifyClient ..
  | ask request =>
      rw [make_ask]
      exact ids_enqueue ..
  | advance d => rfl

theorem ids_step {n m : Network} {task : Task} (h : n.step? task = some m) : m.ids = n.ids := by
  rcases step?_cases h with ⟨-, hr⟩ | ⟨-, id, c, k, t, -, rfl⟩
  · obtain ⟨request, rest, -, -, -, -, hids⟩ := registryStep?_eq_some hr
    exact hids
  · exact ids_apply ..

/-- An event builds a client under the next identifier, or it leaves the counter alone. -/
theorem issues_or_leaves (n : Network) (e : Event) :
    (e.isValidBuild = true ∧ 0 < n.ids.upcoming ∧ n.issuedIn e = [n.ids.upcoming] ∧
        ∃ config buffer drawX drawY, n.react e = n.built config buffer drawX drawY) ∨
      (n.issuedIn e = [] ∧ (n.react e).ids = n.ids ∧
        (e.isValidBuild = true → n.ids.upcoming ≤ 0)) := by
  cases e with
  | task task =>
      refine .inr ⟨rfl, ?_, nofun⟩
      cases hs : n.step? task with
      | none => rw [react_of_none hs]
      | some m =>
          rw [react_of_some hs]
          exact ids_step hs
  | move move =>
      cases move with
      | build config buffer drawX drawY =>
          rcases n.accept_cases config buffer drawX drawY with ⟨hvalid, hpos, hok⟩ | ⟨why, hno, hend⟩
          · refine .inl ⟨by rw [Event.isValidBuild, hvalid]; rfl, hpos, by rw [issuedIn, hok],
              config, buffer, drawX, drawY, ?_⟩
            rw [react, make, hok]
          · refine .inr ⟨by rw [issuedIn, hno], ?_, fun h => hend (List.isEmpty_iff.mp h)⟩
            rw [react, make_of_error _ _ _ hno]
      | _ => exact .inr ⟨rfl, n.ids_make_of_ne_build (by simp), fun h => absurd h Bool.false_ne_true⟩

/-- After so many calls that could succeed, the identifiers issued are consecutive, and the counter
stands behind the last one or has come to its end. -/
structure Counts (start : Int) (calls : Nat) (issued : List ClientId) (upcoming : ClientId) :
    Prop where
  consecutive : issued.map Int32.toInt = (List.range issued.length).map fun i : Nat => start + i
  counter : issued.length = calls ∧ upcoming.toInt = start + calls ∨
    issued.length ≤ calls ∧ start + issued.length = 2 ^ 31 ∧ upcoming ≤ 0

section
variable {start : Int} {calls : Nat} {issued : List ClientId} {upcoming : ClientId}

theorem Counts.issue (h : Counts start calls issued upcoming) (hpos : 0 < upcoming) :
    Counts start (calls + 1) (issued ++ [upcoming]) (upcoming + 1) := by
  obtain ⟨hlength, hvalue⟩ := h.counter.resolve_right fun hend => not_le_of_pos hpos hend.2.2
  constructor
  · rw [List.map_append, h.consecutive, List.length_append, List.length_singleton, List.range_succ,
      List.map_append, List.map_singleton, List.map_singleton, hvalue, hlength]
  · rw [List.length_append, List.length_singleton]
    have hlt := Int32.toInt_lt upcoming
    rw [Int32.lt_iff_toInt_lt, Int32.toInt_zero] at hpos
    rw [Int32.le_iff_toInt_le, Int32.toInt_add, Int32.toInt_zero, Int32.toInt_one, Int.bmod]
    split <;> omega

/-- No identifier is left, and none is used. -/
theorem Counts.refuse (h : Counts start calls issued upcoming) (hstart : 0 < start)
    (hend : upcoming ≤ 0) : Counts start (calls + 1) issued upcoming := by
  refine ⟨h.consecutive, .inr ?_⟩
  rcases h.counter with ⟨-, hvalue⟩ | ⟨hlength, htotal, -⟩
  · rw [Int32.le_iff_toInt_le, Int32.toInt_zero] at hend
    omega
  · exact ⟨by omega, htotal, hend⟩

theorem Counts.length_eq (h : Counts start calls issued upcoming) :
    issued.length = min calls (2 ^ 31 - start).toNat := by
  have hlt := Int32.toInt_lt upcoming
  rcases h.counter with ⟨hlength, hvalue⟩ | ⟨hlength, htotal, -⟩
  · omega
  · omega

theorem Counts.nodup (h : Counts start calls issued upcoming) : issued.Nodup := by
  refine List.Nodup.of_map Int32.toInt ?_
  rw [h.consecutive]
  refine List.nodup_range.map fun a b hab => ?_
  simpa using hab

theorem Counts.toInt_of_mem (h : Counts start calls issued upcoming) {id : ClientId}
    (hid : id ∈ issued) : start ≤ id.toInt ∧ id.toInt < start + issued.length := by
  have hmem := List.mem_map_of_mem (f := Int32.toInt) hid
  rw [h.consecutive] at hmem
  obtain ⟨i, hi, he⟩ := List.mem_map.mp hmem
  have := List.mem_range.mp hi
  omega

theorem Counts.pos_of_mem (h : Counts start calls issued upcoming) (hstart : 0 < start)
    {id : ClientId} (hid : id ∈ issued) : 0 < id := by
  rw [Int32.lt_iff_toInt_lt, Int32.toInt_zero]
  exact Int.lt_of_lt_of_le hstart (h.toInt_of_mem hid).1

/-- The counter is at its end if and only if the largest identifier has been issued. -/
theorem Counts.le_zero_iff (h : Counts start calls issued upcoming) (hstart : 0 < start)
    (hsmall : start < 2 ^ 31) : upcoming ≤ 0 ↔ Int32.maxValue ∈ issued := by
  have hmax : Int32.maxValue.toInt = 2 ^ 31 - 1 := rfl
  constructor
  · intro hend
    have hnext := h.refuse hstart hend
    rcases hnext.counter with ⟨hlength, hvalue⟩ | ⟨-, htotal, -⟩
    · rw [Int32.le_iff_toInt_le, Int32.toInt_zero] at hend
      omega
    · have hlast : Int32.maxValue.toInt ∈ issued.map Int32.toInt := by
        rw [h.consecutive]
        refine List.mem_map.mpr ⟨issued.length - 1, List.mem_range.mpr (by omega), ?_⟩
        omega
      obtain ⟨id, hid, he⟩ := List.mem_map.mp hlast
      rwa [← Int32.toInt_inj.mp he]
  · intro hmem
    have hbound := (h.toInt_of_mem hmem).2
    rcases h.counter with ⟨hlength, hvalue⟩ | ⟨-, -, hend⟩
    · have hlt := Int32.toInt_lt upcoming
      omega
    · exact hend

end

/-- How many calls could have succeeded. -/
def callsIn (past : List (Network × Event)) : Nat := past.countP fun s => s.2.isValidBuild

theorem callsIn_trace (n : Network) (events : List Event) :
    callsIn (n.trace events) = events.countP Event.isValidBuild := by
  induction events generalizing n with
  | nil => rfl
  | cons e rest ih =>
      rw [callsIn, trace, List.countP_cons, List.countP_cons, ← ih (n.react e)]
      rfl

theorem counts_react {n : Network} {past : List (Network × Event)} {start : Int}
    (hstart : 0 < start) (h : Counts start (callsIn past) (issuedOf past) n.ids.upcoming)
    (e : Event) :
    Counts start (callsIn (past ++ [(n, e)])) (issuedOf (past ++ [(n, e)]))
      (n.react e).ids.upcoming := by
  have hcalls : callsIn (past ++ [(n, e)]) =
      if e.isValidBuild then callsIn past + 1 else callsIn past := by
    rw [callsIn, List.countP_append, List.countP_singleton]
    split <;> rfl
  rw [hcalls, issuedOf_append]
  rcases n.issues_or_leaves e with
    ⟨hvalid, hpos, hissued, config, buffer, drawX, drawY, hbuilt⟩ | ⟨hissued, hids, hend⟩
  · rw [if_pos hvalid, hissued, hbuilt]
    exact h.issue hpos
  · rw [hissued, List.append_nil, hids]
    split
    · next hvalid => exact h.refuse hstart (hend hvalid)
    · exact h

/-- Whoever was issued an identifier has a connection. -/
theorem connected_react {n : Network} {past : List (Network × Event)} (hi : n.Issued)
    (h : ∀ id ∈ issuedOf past, (n.connection? id).isSome) (e : Event) :
    ∀ id ∈ issuedOf (past ++ [(n, e)]), ((n.react e).connection? id).isSome := by
  intro id hid
  rw [issuedOf_append] at hid
  rcases List.mem_append.mp hid with hid | hid
  · obtain ⟨k, hk⟩ := Option.isSome_iff_exists.mp (h id hid)
    obtain ⟨k', hk', -⟩ := evolves hi hk e
    rw [hk']
    rfl
  · rcases n.issues_or_leaves e with
      ⟨-, -, hissued, config, buffer, drawX, drawY, hbuilt⟩ | ⟨hissued, -, -⟩
    · rw [hissued, List.mem_singleton] at hid
      rw [hbuilt, connection?_built, if_pos hid]
      rfl
    · rw [hissued] at hid
      cases hid

/-- The client that was built under an identifier carries it in its record, and that record is what a
join offers first. -/
structure Carried (n : Network) (id : ClientId) : Prop where
  connected : (n.connection? id).isSome
  record : ∃ c, n.client? id = some c ∧ c.record.id = id ∧
    (n.registry.running = true →
      (n.registry.handle (.join id)).rounds.head?.map Round.batch = some [c.record])

theorem Regular.carried {n : Network} (h : n.Regular) {id : ClientId}
    (hid : (n.connection? id).isSome) : n.Carried id := by
  refine ⟨hid, ?_⟩
  rw [← h.isSome_record?, Registry.record?, Option.isSome_map] at hid
  obtain ⟨c, hc⟩ := Option.isSome_iff_exists.mp hid
  have hrecord : n.registry.record? id = some c.record := by
    rw [Registry.record?, hc]
    rfl
  refine ⟨c, hc, h.sound.named id c.record hrecord, fun hrunning => ?_⟩
  rw [← List.head?_map, (n.registry.handle_eq_enact (.join id)).2, Registry.greeting,
    if_pos hrunning, hrecord]
  rfl

theorem toInt_startingAt (first : ClientId) :
    (IdentifierSource.startingAt first).upcoming.toInt = max first.toInt 1 := by
  unfold IdentifierSource.startingAt
  split
  · next h =>
      rw [Int32.lt_iff_toInt_lt, Int32.toInt_one] at h
      rw [Int.max_eq_right (Int.le_of_lt h), Int32.toInt_one]
  · next h =>
      rw [Int32.lt_iff_toInt_lt, Int32.toInt_one] at h
      exact (Int.max_eq_left (Int.not_lt.mp h)).symm

theorem counts_after (first : ClientId) (events : List Event) :
    let start : Network := { ids := .startingAt first }
    (start.after events).Regular ∧
      Counts (max first.toInt 1) (events.countP Event.isValidBuild)
        (issuedOf (start.trace events)) (start.after events).ids.upcoming ∧
      ∀ id ∈ issuedOf (start.trace events), ((start.after events).connection? id).isSome := by
  intro start
  rw [← callsIn_trace start events]
  have hpos : 0 < max first.toInt 1 := by omega
  refine run_induction (P := fun past n => n.Regular ∧
      Counts (max first.toInt 1) (callsIn past) (issuedOf past) n.ids.upcoming ∧
        ∀ id ∈ issuedOf past, (n.connection? id).isSome)
    (Q := fun _ _ => True) ?_ ?_ events fun _ _ => trivial
  · rintro past n e ⟨hr, hcounts, hconnected⟩ -
    exact ⟨hr.react e, counts_react hpos hcounts e, connected_react hr.issued hconnected e⟩
  · refine ⟨regular_empty _, ⟨rfl, .inl ⟨rfl, ?_⟩⟩, nofun⟩
    exact (toInt_startingAt first).trans (Int.add_zero _).symm

/-- Identifiers of a network over any run, with any calls to build a client in it. The issued ones are
consecutive from the start on, as many as there were calls that could succeed and as there are
identifiers; they are positive, and none is issued twice. Each is carried by its client. The next call
fails with the first violation of its configuration and changes nothing, or it gets the next identifier,
or, once the largest one has been issued, it fails and so do all after it. -/
theorem identifiers_issued (first : ClientId) (events : List Event) :
    let n := ({ ids := .startingAt first } : Network).after events
    let issued := issuedOf (({ ids := .startingAt first } : Network).trace events)
    let start := max first.toInt 1
    issued.map Int32.toInt = (List.range issued.length).map (fun i : Nat => start + i) ∧
      issued.length = min (events.countP Event.isValidBuild) (2 ^ 31 - start).toNat ∧
      (∀ id ∈ issued, 0 < id) ∧ issued.Nodup ∧ (∀ id ∈ issued, n.Carried id) ∧
      ∀ config buffer drawX drawY,
        (∀ e, config.violations.head? = some e →
          n.accept config buffer drawX drawY = .error (.config e) ∧
            n.make (.build config buffer drawX drawY) = n) ∧
        (config.violations = [] → Int32.maxValue ∉ issued →
          ∃ id m, n.accept config buffer drawX drawY = .ok (id, m) ∧
            n.make (.build config buffer drawX drawY) = m ∧ id.toInt = start + issued.length ∧
            0 < id ∧ id ∉ issued ∧ m.Carried id ∧
            m.client? id = some (.create id (config.spawnCoordinate drawX)
              (config.spawnCoordinate drawY) config.mailboxCapacity)) ∧
        (config.violations = [] → Int32.maxValue ∈ issued → ∀ more,
          (n.after more).accept config buffer drawX drawY = .error .identifiersExhausted ∧
            (n.after more).make (.build config buffer drawX drawY) = n.after more) := by
  intro n issued start
  obtain ⟨hregular, hcounts, hconnected⟩ := counts_after first events
  have hpos : 0 < start := by omega
  have hsmall : start < 2 ^ 31 := by
    have := Int32.toInt_lt first
    omega
  refine ⟨hcounts.consecutive, hcounts.length_eq, fun id => hcounts.pos_of_mem hpos, hcounts.nodup,
    fun id hid => hregular.carried (hconnected id hid), ?_⟩
  intro config buffer drawX drawY
  refine ⟨fun e he => ?_, fun hvalid hleft => ?_, fun hvalid hlast more => ?_⟩
  · have hfailed := accept_of_violations (n := n) buffer drawX drawY he
    exact ⟨hfailed, make_of_error _ _ _ hfailed⟩
  · have hnext : 0 < n.ids.upcoming :=
      Int32.not_le.mp fun hend => hleft ((hcounts.le_zero_iff hpos hsmall).mp hend)
    obtain ⟨hlength, hvalue⟩ := hcounts.counter.resolve_right fun h => not_le_of_pos hnext h.2.2
    have hok := accept_of_valid buffer drawX drawY hvalid hnext
    have hmade : n.make (.build config buffer drawX drawY) = n.built config buffer drawX drawY := by
      rw [make, hok]
    have hbuilt : (n.built config buffer drawX drawY).Regular := by
      rw [← hmade]
      exact hregular.react (.move (.build config buffer drawX drawY))
    refine ⟨_, _, hok, hmade, ?_, hnext, ?_, hbuilt.carried ?_, ?_⟩
    · rw [hvalue, hlength]
    · intro hid
      have hlt := (hcounts.toInt_of_mem hid).2
      rw [hlength, ← hvalue] at hlt
      exact absurd hlt (Int.lt_irrefl _)
    · rw [connection?_built, if_pos rfl]
      rfl
    · rw [client?_built, if_pos rfl]
  · -- The largest identifier stays among the issued ones.
    obtain ⟨-, hlater, -⟩ := counts_after first (events ++ more)
    have hstill : Int32.maxValue ∈
        issuedOf (({ ids := .startingAt first } : Network).trace (events ++ more)) := by
      rw [trace_append, issuedOf, List.flatMap_append]
      exact List.mem_append_left _ hlast
    have hafter : n.after more = ({ ids := .startingAt first } : Network).after (events ++ more) :=
      List.foldl_append.symm
    have hend : (n.after more).ids.upcoming ≤ 0 := by
      rw [hafter]
      exact (hlater.le_zero_iff hpos hsmall).mpr hstill
    have hfailed := accept_of_exhausted buffer drawX drawY hvalid hend
    exact ⟨hfailed, make_of_error _ _ _ hfailed⟩

/-- Calls next to the end: two that succeed, one before them and one between them that cannot. -/
def lastCalls : List Event :=
  [.move (.build { mailboxCapacity := 0, payloadLimit := 0 } 256 0 0), .move (.build {} 256 0 0),
    .move (.start 2147483646), .move (.build { write := .zero } 256 0 0), .task .registry,
    .move (.build {} 256 0 0)]

theorem identifiers_in_lastCalls :
    let n := ({ ids := .startingAt 2147483646 } : Network).after lastCalls
    issuedOf (({ ids := .startingAt 2147483646 } : Network).trace lastCalls) =
        [2147483646, 2147483647] ∧
      n.Carried 2147483646 ∧
      n.accept { mailboxCapacity := 0, payloadLimit := 0 } 256 0 0 =
        .error (.config .zeroMailboxCapacity) ∧
      ∀ more, (n.after more).accept {} 256 0 0 = .error .identifiersExhausted := by
  intro n
  have hissued : issuedOf (({ ids := .startingAt 2147483646 } : Network).trace lastCalls) =
      [2147483646, 2147483647] := by decide +kernel
  obtain ⟨-, -, -, -, hcarried, hcalls⟩ := identifiers_issued 2147483646 lastCalls
  obtain ⟨hinvalid, -, -⟩ := hcalls { mailboxCapacity := 0, payloadLimit := 0 } 256 0 0
  obtain ⟨-, -, hexhausted⟩ := hcalls {} 256 0 0
  refine ⟨hissued, hcarried _ (by rw [hissued]; decide), (hinvalid _ (by decide +kernel)).1, ?_⟩
  intro more
  exact (hexhausted (by decide +kernel) (by rw [hissued]; decide) more).1

end Network
end PositionRelay
