import TableBrowser.Proofs.Paging.PageSizes
import TableBrowser.Proofs.Web.Addressing
import TableBrowser.Web.Settings

/-!
# What a command line sets

The numbers of an accepted command line are below the bounds they are checked for, and the
settings take all of them over.  But a command line may ask for more minutes than have their
seconds in a word, and then there are no settings.
-/

namespace TableBrowser

theorem Text.lt_of_toNatBelow? {bound n : Nat} {t : Text} (hread : toNatBelow? bound t = some n) :
    n < bound := by
  rw [toNatBelow?, Option.filter_eq_some_iff] at hread
  exact of_decide_eq_true hread.2

/-! ## Requests -/

namespace Paging

variable {config : Config}

/-- Every request carries the limit of the configuration. -/
theorem Controller.start_timeout {state : State} {action : Action} {ticket : Ticket}
    (hticket : (start config state action).2 = some ticket) :
    ticket.request.timeoutSeconds? = config.timeoutSeconds? := by
  have hreload {state : State} (hreload : (reload config state).2 = some ticket) :
      ticket.request.timeoutSeconds? = config.timeoutSeconds? := by
    unfold reload at hreload
    split at hreload
    · cases hreload
    · cases hreload
      rfl
  cases action with
  | select | sort | clearSort | filter | clearFilter => exact hreload hticket
  | more =>
      simp only [start, loadMore] at hticket
      split at hticket
      · cases hticket
      · split at hticket
        · cases hticket
          rfl
        · cases hticket

theorem Run.timeout_of_mem_trace {events : List Event} {transition : Transition}
    (hmem : transition ∈ (initial config).trace config events) {ticket : Ticket}
    (hreport : transition.report = .waiting ticket) :
    ticket.request.timeoutSeconds? = config.timeoutSeconds? := by
  obtain ⟨⟨earlier, hbefore⟩, hstep⟩ := step_of_mem_trace hmem
  have hsound : transition.before.Sound := hbefore ▸ sound_steps config earlier
  have hmoves := hsound.moves config transition.event
  have hwaiting : (transition.before.step config transition.event).2 = .waiting ticket := by
    rw [hstep, hreport]
  rw [hwaiting] at hmoves
  obtain ⟨label, action, hevent⟩ := hmoves.event_of_waiting
  rw [hevent] at hwaiting
  exact Controller.start_timeout (step_act_waiting_iff.mp hwaiting)

end Paging

namespace Web

/-! ## Options that are accepted -/

section Accepted

variable {P : Options → Prop}
  (hset : ∀ {options after : Options} {name : OptionName} {value : Text},
    options.setValue name value = .ok after → P options → P after)

include hset

namespace CommandLine

theorem settle_invariant {line after : CommandLine} {name : OptionName} {value : Text}
    (hsettle : line.settle name value = .ok after) (hline : P line.options) :
    P after.options := by
  rw [settle] at hsettle
  split at hsettle
  · cases hsettle
  · obtain ⟨options, hvalue, rfl⟩ := exists_of_map_eq_ok hsettle
    exact hset hvalue hline

theorem flush_invariant {line after : CommandLine} (hflush : line.flush = .ok after)
    (hline : P line.options) : P after.options := by
  unfold flush at hflush
  split at hflush
  · cases hflush
    exact hline
  · cases hflush
  · exact settle_invariant hset hflush hline

theorem meet_invariant {line after : CommandLine} {name : OptionName} {attached? : Option Text}
    (hmeet : line.meet name attached? = .ok after) (hline : P line.options) :
    P after.options := by
  unfold meet at hmeet
  split at hmeet
  · obtain ⟨flushed, hflush, hrest⟩ := exists_of_bind_eq_ok hmeet
    have hflushed := flush_invariant hset hflush hline
    cases attached? with
    | some value => exact settle_invariant hset hrest hflushed
    | none =>
        cases hrest
        exact hflushed
  · cases attached? with
    | some value => cases hmeet
    | none =>
        obtain ⟨flushed, hflush, hrest⟩ := exists_of_bind_eq_ok hmeet
        exact settle_invariant hset hrest (flush_invariant hset hflush hline)

theorem meetLong_invariant {line after : CommandLine} {t : Text}
    (hmeet : line.meetLong t = .ok after) (hline : P line.options) : P after.options := by
  simp only [meetLong] at hmeet
  split at hmeet
  · exact meet_invariant hset hmeet hline
  · cases hmeet

theorem meetShort_invariant {line after : CommandLine} {letter : Char} {t : Text}
    (hmeet : line.meetShort letter t = .ok after) (hline : P line.options) :
    P after.options := by
  unfold meetShort at hmeet
  split at hmeet
  · exact meet_invariant hset hmeet hline
  · cases hmeet

theorem end_invariant {line : CommandLine} {options : Options}
    (hend : line.flush.map (·.options) = .ok options) (hline : P line.options) : P options := by
  obtain ⟨flushed, hflush, rfl⟩ := exists_of_map_eq_ok hend
  exact flush_invariant hset hflush hline

theorem readFrom_invariant {line : CommandLine} {words : List Text} {options : Options}
    (hread : line.readFrom words = .ok options) (hline : P line.options) : P options := by
  fun_induction CommandLine.readFrom line words with
  | case1 line | case2 line => exact end_invariant hset hread hline
  | case4 line rest t hlong after hmeet ih =>
      exact ih hread (meetLong_invariant hset hmeet hline)
  | case6 line rest letter t hlong hshort after hmeet ih =>
      exact ih hread (meetShort_invariant hset hmeet hline)
  | case8 line rest value hends hlong hshort name hwaiting ih => exact ih hread hline
  | case3 | case5 | case7 | case9 => cases hread

end CommandLine

/-- What holds of the standard options and of all that a value makes of options it holds of,
holds of the options of every accepted command line. -/
theorem Options.read_invariant (hstandard : P .standard) {words : List Text} {options : Options}
    (hread : Options.read words = .ok options) : P options :=
  CommandLine.readFrom_invariant hset hread hstandard

end Accepted

/-! ## Numbers in range -/

namespace Options

/-- Every number of the options is below the bound that its text is checked for. -/
structure InRange (options : Options) : Prop where
  port_lt : options.port < UInt16.size
  maxSessions_lt : options.maxSessions < UInt64.size
  initialSize_lt : options.initialSize < UInt32.size
  fixedSize_lt : ∀ rows, options.fixedSize? = some rows → rows < UInt32.size
  queryTimeout_lt : options.queryTimeout < UInt64.size

theorem lt_of_unsigned? {bound n : Nat} {t : Text} (hread : unsigned? bound t = some n) :
    n < bound := by
  unfold unsigned? at hread
  split at hread
  · exact Text.lt_of_toNatBelow? hread
  · exact Text.lt_of_toNatBelow? hread

theorem lt_of_signed? {bound n : Nat} {t : Text} (hpos : 0 < bound)
    (hread : signed? bound t = some n) : n < bound := by
  unfold signed? at hread
  split at hread
  · have hzero : n < 1 := Text.lt_of_toNatBelow? hread
    omega
  · exact lt_of_unsigned? hread

theorem inRange_standard : standard.InRange where
  port_lt := by decide
  maxSessions_lt := by decide
  initialSize_lt := by decide
  fixedSize_lt := by rintro rows ⟨⟩
  queryTimeout_lt := by decide

/-- A number that is checked has been read. -/
theorem exists_of_checked {number? : Option Nat} {set : Nat → Options} {after : Options}
    (hchecked : (match number? with
      | some n => .ok (set n)
      | none => .error .valueValidation : Except ArgumentFault Options) = .ok after) :
    ∃ n, number? = some n ∧ set n = after := by
  cases number? with
  | none => cases hchecked
  | some n =>
      cases hchecked
      exact ⟨n, rfl, rfl⟩

theorem inRange_setValue {options after : Options} {name : OptionName} {value : Text}
    (hset : options.setValue name value = .ok after) (hrange : options.InRange) :
    after.InRange := by
  cases name with
  | demo | host | logLevel =>
      cases hset
      exact { hrange with }
  | help | version => cases hset
  | database =>
      simp only [setValue] at hset
      split at hset
      · cases hset
      · cases hset
        exact { hrange with }
  | sessionTimeout =>
      obtain ⟨n, -, rfl⟩ := exists_of_checked hset
      exact { hrange with }
  | port =>
      obtain ⟨n, hread, rfl⟩ := exists_of_checked hset
      exact { hrange with port_lt := lt_of_signed? (by decide) hread }
  | maxSessions =>
      obtain ⟨n, hread, rfl⟩ := exists_of_checked hset
      exact { hrange with maxSessions_lt := lt_of_unsigned? hread }
  | initialChunkSize =>
      obtain ⟨n, hread, rfl⟩ := exists_of_checked hset
      exact { hrange with initialSize_lt := lt_of_signed? (by decide) hread }
  | chunkSize =>
      obtain ⟨n, hread, rfl⟩ := exists_of_checked hset
      refine { hrange with fixedSize_lt := ?_ }
      rintro rows ⟨⟩
      exact lt_of_signed? (by decide) hread
  | queryTimeout =>
      obtain ⟨n, hread, rfl⟩ := exists_of_checked hset
      exact { hrange with queryTimeout_lt := lt_of_unsigned? hread }

theorem inRange_of_read {words : List Text} {options : Options}
    (hread : Options.read words = .ok options) : options.InRange :=
  read_invariant inRange_setValue inRange_standard hread

end Options

/-! ## Settings -/

namespace Settings

open TableBrowser.Paging (Config Run Setting)

/-- The limit of seconds that page requests carry: none for no seconds. -/
def limitSeconds? (seconds : Nat) : Option Nat :=
  if seconds = 0 then none else some seconds

variable {options : Options} {settings : Settings}

theorem initialRows_pagingSettings (options : Options) :
    (pagingSettings options).filterMap Setting.initialRows? = [options.initialSize] := by
  rw [pagingSettings]
  cases options.fixedSize? <;> split <;> rfl

theorem fixedRows_pagingSettings (options : Options) :
    (pagingSettings options).filterMap Setting.fixedRows? = options.fixedSize?.toList := by
  rw [pagingSettings]
  cases options.fixedSize? <;> split <;> rfl

/-- The most minutes whose seconds fit a word. -/
def lastMinutes : Nat := 307445734561825860

theorem secondsOfMinutes?_eq_some_iff {minutes seconds : UInt64} :
    secondsOfMinutes? minutes = some seconds ↔ seconds.toNat = 60 * minutes.toNat := by
  have hmul : (minutes * 60).toNat = minutes.toNat * 60 % UInt64.size := UInt64.toNat_mul _ _
  have hseconds : seconds.toNat < UInt64.size := seconds.toNat_lt
  unfold secondsOfMinutes?
  constructor
  · intro hsome
    split at hsome
    · next hfits =>
        cases hsome
        rw [hmul, Nat.mod_eq_of_lt hfits, Nat.mul_comm]
    · cases hsome
  · intro hexact
    have hfits : minutes.toNat * 60 < UInt64.size := by omega
    rw [if_pos hfits, Option.some.injEq]
    apply UInt64.toNat.inj
    rw [hmul, Nat.mod_eq_of_lt hfits, hexact, Nat.mul_comm]

theorem isSome_secondsOfMinutes?_iff (minutes : UInt64) :
    (secondsOfMinutes? minutes).isSome = true ↔ minutes.toNat ≤ lastMinutes := by
  have hsize : UInt64.size = 18446744073709551616 := rfl
  unfold secondsOfMinutes?
  rw [hsize, lastMinutes]
  split
  · next hfits => exact iff_of_true rfl (by omega)
  · next hfits => exact iff_of_false nofun (by omega)

/-- Settings that options come to. -/
theorem ofOptions?_eq_some (hsettings : ofOptions? options = some settings) :
    secondsOfMinutes? options.sessionMinutes = some settings.sessionTimeout ∧
      settings.paging = .ofSettings (pagingSettings options) ∧
      settings.host = options.host ∧ settings.port = options.port ∧
      settings.database? = options.database? ∧ settings.maxSessions = options.maxSessions := by
  obtain ⟨seconds, hseconds, rfl⟩ := Option.map_eq_some_iff.mp hsettings
  exact ⟨hseconds, rfl, rfl, rfl, rfl, rfl⟩

/-! ## Page settings -/

theorem initialSize_ofSettings (options : Options) :
    (Config.ofSettings (pagingSettings options)).initialSize = max options.initialSize 1 := by
  rw [Config.initialSize_ofSettings, initialRows_pagingSettings]
  rfl

theorem fixedSize?_ofSettings (options : Options) :
    (Config.ofSettings (pagingSettings options)).fixedSize? =
      options.fixedSize?.map (max · 1) := by
  rw [Config.fixedSize?_ofSettings, fixedRows_pagingSettings]
  cases options.fixedSize? <;> rfl

theorem startingSize_ofSettings (options : Options) :
    (Config.ofSettings (pagingSettings options)).startingSize =
      max (options.fixedSize?.getD options.initialSize) 1 := by
  rw [Config.startingSize, fixedSize?_ofSettings, initialSize_ofSettings]
  cases options.fixedSize? <;> rfl

/-- The limit is set last, whatever the sizes are. -/
theorem timeoutSeconds?_ofSettings (options : Options) :
    (Config.ofSettings (pagingSettings options)).timeoutSeconds? =
      limitSeconds? options.queryTimeout := by
  have hwhole (seconds : Nat) : seconds * 1000 / 1000 = seconds :=
    Nat.mul_div_cancel seconds (by decide)
  rw [pagingSettings, Config.ofSettings, List.foldl_append, limitSeconds?]
  split
  · rfl
  · next hsome =>
      simp only [List.foldl_cons, List.foldl_nil, Config.set, Config.timeoutSeconds?,
        Option.map_some, hwhole, Nat.max_eq_left (Nat.pos_of_ne_zero hsome)]

/-! ## All settings -/

/-- The settings have all numbers of a command line, in range: sixty seconds for each minute
of a session, and pages of at least one row. -/
structure Carry (options : Options) (settings : Settings) : Prop where
  sessionTimeout_eq : settings.sessionTimeout.toNat = 60 * options.sessionMinutes.toNat
  initialSize_eq : settings.paging.initialSize = max options.initialSize 1
  initialSize_lt : settings.paging.initialSize < UInt32.size
  fixedSize_eq : settings.paging.fixedSize? = options.fixedSize?.map (max · 1)
  fixedSize_lt : ∀ rows, settings.paging.fixedSize? = some rows → rows < UInt32.size
  startingSize_eq :
    settings.paging.startingSize = max (options.fixedSize?.getD options.initialSize) 1
  timeout_eq : settings.paging.timeoutSeconds? = limitSeconds? options.queryTimeout
  requests_limited : ∀ events, ∀ transition ∈ (Run.initial settings.paging).trace
      settings.paging events, ∀ ticket, transition.report = .waiting ticket →
    ticket.request.timeoutSeconds? = limitSeconds? options.queryTimeout
  others_eq :
    settings.host = options.host ∧ settings.port = options.port ∧
      settings.database? = options.database? ∧ settings.maxSessions = options.maxSessions

theorem carry_ofOptions? (hrange : options.InRange)
    (hsettings : ofOptions? options = some settings) : Carry options settings := by
  obtain ⟨hseconds, hpaging, hothers⟩ := ofOptions?_eq_some hsettings
  have hword : 1 < UInt32.size := by decide
  have htimeout : settings.paging.timeoutSeconds? = limitSeconds? options.queryTimeout := by
    rw [hpaging, timeoutSeconds?_ofSettings]
  exact {
    sessionTimeout_eq := secondsOfMinutes?_eq_some_iff.mp hseconds
    initialSize_eq := by rw [hpaging, initialSize_ofSettings]
    initialSize_lt := by
      rw [hpaging, initialSize_ofSettings]
      exact Nat.max_lt.mpr ⟨hrange.initialSize_lt, hword⟩
    fixedSize_eq := by rw [hpaging, fixedSize?_ofSettings]
    fixedSize_lt := by
      intro rows hrows
      rw [hpaging, fixedSize?_ofSettings, Option.map_eq_some_iff] at hrows
      obtain ⟨given, hgiven, rfl⟩ := hrows
      exact Nat.max_lt.mpr ⟨hrange.fixedSize_lt given hgiven, hword⟩
    startingSize_eq := by rw [hpaging, startingSize_ofSettings]
    timeout_eq := htimeout
    requests_limited := fun _ _ hmem _ hreport =>
      (Run.timeout_of_mem_trace hmem hreport).trans htimeout
    others_eq := hothers }

/-- The numbers of an accepted command line are in range.  They come to settings exactly up to
the last minute whose seconds fit a word, and then the settings have all of them. -/
theorem command_line_carried {words : List Text} {options : Options}
    (hread : Options.read words = .ok options) :
    options.InRange ∧
      ((ofOptions? options).isSome = true ↔ options.sessionMinutes.toNat ≤ lastMinutes) ∧
      ∀ settings, ofOptions? options = some settings → Carry options settings := by
  have hrange := Options.inRange_of_read hread
  refine ⟨hrange, ?_, fun settings hsettings => carry_ofOptions? hrange hsettings⟩
  rw [ofOptions?, Option.isSome_map, isSome_secondsOfMinutes?_iff]

theorem command_line_carried_short :
    ∃ options settings,
      Options.read ["--session-timeout", "45", "--chunk-size=0", "--query-timeout=0"] =
        .ok options ∧
      ofOptions? options = some settings ∧ Carry options settings ∧
      settings.sessionTimeout = 2700 ∧ settings.paging = ⟨500, some 1, none⟩ := by
  let options : Options :=
    { Options.standard with sessionMinutes := 45, fixedSize? := some 0, queryTimeout := 0 }
  have hread : Options.read ["--session-timeout", "45", "--chunk-size=0", "--query-timeout=0"] =
      .ok options := by rfl
  obtain ⟨-, hsome, hcarry⟩ := command_line_carried hread
  obtain ⟨settings, hsettings⟩ := Option.isSome_iff_exists.mp (hsome.mpr (by decide))
  have hfound : (ofOptions? options).map (fun settings =>
      (settings.sessionTimeout, settings.paging)) = some (2700, ⟨500, some 1, none⟩) := by
    decide
  rw [hsettings, Option.map_some, Option.some.injEq, Prod.mk.injEq] at hfound
  exact ⟨options, settings, hread, hsettings, hcarry settings hsettings, hfound.1, hfound.2⟩

/-- With one minute more than fit the multiplication overflows, and the command line that was
accepted comes to no settings. -/
theorem minutes_overflow :
    ∃ options, Options.read ["--session-timeout", "307445734561825861"] = .ok options ∧
      options.sessionMinutes = 307445734561825861 ∧ ofOptions? options = none :=
  ⟨{ Options.standard with sessionMinutes := 307445734561825861 }, by rfl, rfl, by decide⟩

end Settings

end Web

end TableBrowser
