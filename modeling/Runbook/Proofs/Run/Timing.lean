/-
  The times of a run.

  The clock moves while an action runs and at no other time.  So a run that succeeds
  takes as long as its invocations take together, up to rounding.  Of each command it
  keeps the time of the last invocation: the times are the table of what all
  invocations took, in order.

  * `Table.sum_values_ofList_le`: the values that a table keeps make no more than all;
  * `runFrom_accounts`: what the invocations of a run do to the times and the clock;
  * `execute_accounts`: the times and the total of a run;
  * `sum_timed_near`: the times of invocations add up to the difference of the readings
    around them;
  * `execute_timing`: **the times that a run keeps are those of the last invocations,
    and the total is that of all of them**, up to rounding;
  * `execute_timing_rounded`: the total can be less than the times together.
-/
import Runbook.Proofs.Run.Directory
import Runbook.Proofs.Run.Sequence

namespace Runbook

namespace Table

variable {α : Type} [DecidableEq α]

theorem sum_insertEntry_le (k : α) {v : Rat} (hv : 0 ≤ v) : ∀ {l : List (α × Rat)},
    (∀ e ∈ l, 0 ≤ e.2) → ((insertEntry k v l).map Prod.snd).sum ≤ (l.map Prod.snd).sum + v
  | [], _ => by simp [insertEntry]
  | (a, u) :: l, h => by
    have hu : 0 ≤ u := h (a, u) List.mem_cons_self
    have ih := sum_insertEntry_le k hv fun e he => h e (.tail _ he)
    by_cases ha : a = k
    · simp only [insertEntry, ha, if_true, List.map_cons, List.sum_cons]
      linarith
    · simp only [insertEntry, ha, if_false, List.map_cons, List.sum_cons]
      linarith

/-- The values of the table of a list make no more than those of the list: a value that another
replaces does not count. -/
theorem sum_values_ofList_le {l : List (α × Rat)} (h : ∀ e ∈ l, 0 ≤ e.2) :
    (ofList l).values.sum ≤ (l.map Prod.snd).sum := by
  induction l using List.reverseRecOn with
  | nil => simp [ofList, empty, values]
  | append_singleton l e ih =>
    have hl : ∀ e ∈ l, 0 ≤ e.2 := fun e he => h e (List.mem_append_left _ he)
    have hinsert : ((ofList l).insert e.1 e.2).values.sum ≤ (ofList l).values.sum + e.2 :=
      sum_insertEntry_le e.1 (h e (by simp)) fun e he => hl e (mem_of_mem_ofList he)
    rw [ofList_concat, List.map_append, List.sum_append, List.map_singleton, List.sum_singleton]
    linarith [ih hl]

/-- They make as much if no key is repeated. -/
theorem sum_values_ofList {l : List (α × Rat)} (h : (l.map Prod.fst).Nodup) :
    (ofList l).values.sum = (l.map Prod.snd).sum := by
  rw [values, entries_ofList h]

end Table

namespace Run

open Script (Statement)

/-! ## The times of invocations -/

/-- The clock after invocations, which starts at a given time. -/
def clockAfter (clock : Nat) : List Invocation → Nat
  | [] => clock
  | i :: made => clockAfter (clock + i.reply.took) made

/-- The command of every invocation and its time, when the clock starts at a given time. -/
def timed (clock : Nat) : List Invocation → List (String × Rat)
  | [] => []
  | i :: made =>
    (i.command, elapsed clock (clock + i.reply.took)) :: timed (clock + i.reply.took) made

theorem clockAfter_append (clock : Nat) : ∀ made more : List Invocation,
    clockAfter clock (made ++ more) = clockAfter (clockAfter clock made) more
  | [], _ => rfl
  | i :: made, more => clockAfter_append (clock + i.reply.took) made more

theorem timed_append (clock : Nat) : ∀ made more : List Invocation,
    timed clock (made ++ more) = timed clock made ++ timed (clockAfter clock made) more
  | [], _ => rfl
  | i :: made, more => congrArg _ (timed_append (clock + i.reply.took) made more)

theorem clock_le_clockAfter (clock : Nat) : ∀ made : List Invocation,
    clock ≤ clockAfter clock made
  | [] => le_rfl
  | i :: made => (Nat.le_add_right ..).trans (clock_le_clockAfter (clock + i.reply.took) made)

theorem map_fst_timed (clock : Nat) : ∀ made : List Invocation,
    (timed clock made).map Prod.fst = made.map (·.command)
  | [] => rfl
  | i :: made => congrArg _ (map_fst_timed (clock + i.reply.took) made)

theorem timed_nonneg {clock : Nat} : ∀ {made : List Invocation}, ∀ e ∈ timed clock made, 0 ≤ e.2
  | i :: made, e, h => by
    rcases List.mem_cons.1 h with rfl | h
    · exact elapsed_nonneg ..
    · exact timed_nonneg e h

/-- The times of invocations add up to the difference of the readings around them. -/
theorem sum_timed_near (clock : Nat) : ∀ made : List Invocation,
    |((timed clock made).map Prod.snd).sum -
        (reading (clockAfter clock made) - reading clock) * 1000| ≤
      (reading (clockAfter clock made) - reading clock) * 1000 / 2 ^ 51
  | [] => by simp [timed, clockAfter]
  | i :: made => by
    have hfirst := abs_le.1 (elapsed_near_readings (Nat.le_add_right clock i.reply.took))
    have hrest := abs_le.1 (sum_timed_near (clock + i.reply.took) made)
    rw [timed, clockAfter, List.map_cons, List.sum_cons, abs_le]
    constructor <;> linarith [hfirst.1, hfirst.2, hrest.1, hrest.2]

/-- The clock stands at eighths of a second before and after each invocation. -/
def StaysInEighths (clock : Nat) (made : List Invocation) : Prop :=
  InEighths (clockAfter clock made) ∧ eighth ∣ clock ∧ ∀ i ∈ made, eighth ∣ i.reply.took

theorem StaysInEighths.start {clock : Nat} {made : List Invocation} (h : StaysInEighths clock made) :
    InEighths clock :=
  ⟨h.2.1, (clock_le_clockAfter clock made).trans_lt h.1.small⟩

theorem StaysInEighths.tail {clock : Nat} {i : Invocation} {made : List Invocation}
    (h : StaysInEighths clock (i :: made)) : StaysInEighths (clock + i.reply.took) made :=
  ⟨h.1, Nat.dvd_add h.2.1 (h.2.2 i List.mem_cons_self), fun j hj => h.2.2 j (.tail _ hj)⟩

theorem StaysInEighths.after {clock : Nat} {made : List Invocation} :
    ∀ before : List Invocation, StaysInEighths clock (before ++ made) →
    StaysInEighths (clockAfter clock before) made
  | [], h => h
  | _ :: before, h => StaysInEighths.after before h.tail

/-- In eighths of a second the time of an invocation is what it took. -/
theorem StaysInEighths.elapsed_eq {clock : Nat} {i : Invocation} {made : List Invocation}
    (h : StaysInEighths clock (i :: made)) :
    elapsed clock (clock + i.reply.took) = (i.reply.took : Rat) / millisecond := by
  rw [elapsed_eighths h.start h.tail.start (Nat.le_add_right ..)]
  push_cast
  ring

theorem timed_eighths {clock : Nat} : ∀ {made : List Invocation}, StaysInEighths clock made →
    timed clock made = made.map fun i => (i.command, (i.reply.took : Rat) / millisecond)
  | [], _ => rfl
  | i :: made, h => by rw [timed, h.elapsed_eq, timed_eighths h.tail, List.map_cons]

/-- The time of all invocations is then the sum of their times. -/
theorem elapsed_clockAfter_eighths {clock : Nat} : ∀ {made : List Invocation},
    StaysInEighths clock made →
    elapsed clock (clockAfter clock made) = ((timed clock made).map Prod.snd).sum
  | [], h => by
    rw [clockAfter, elapsed_eighths h.start h.start le_rfl]
    simp [timed]
  | i :: made, h => by
    show elapsed clock (clockAfter (clock + i.reply.took) made) = _
    rw [elapsed_add h.start h.tail.start h.tail.1 (Nat.le_add_right ..)
      (clock_le_clockAfter ..), elapsed_clockAfter_eighths h.tail]
    rfl

/-! ## The accounts of a run -/

variable {setup : Setup} {ss : List Statement} {b : Bindings} {w : World}

/-- A run without an error invokes the command of each statement.  It enters the time of each
invocation, and the clock moves by what each took. -/
theorem runFrom_accounts : ∀ {index : Nat} {ss : List Statement} {p q : Progress},
    runFrom setup index ss p = (q, none) →
    let made := invocations setup ss p.bindings p.world
    made.map (·.command) = ss.map (·.command.name) ∧
      q.times = (timed p.world.clock made).foldl (fun t e => t.insert e.1 e.2) p.times ∧
      q.world.clock = clockAfter p.world.clock made
  | _, [], p, q, h => by
    cases h
    exact ⟨rfl, rfl, rfl⟩
  | index, s :: ss, p, q, h => by
    rw [runFrom_cons] at h
    cases he : (attempt setup s p.bindings p.world).error? index s.command.name with
    | some e => rw [he] at h; cases h
    | none =>
      obtain ⟨args, v, w₁, ha⟩ := Ending.error?_eq_none_iff.1 he
      obtain ⟨i, hi, -, ho, rfl⟩ := invocation_of_attempt ha
      have hname : i.command = s.command.name := command_of_invocation hi
      rw [he, ha] at h
      obtain ⟨hnames, htimes, hclock⟩ := runFrom_accounts h
      rw [invocations_cons hi ho]
      refine ⟨?_, ?_, hclock⟩
      · rw [List.map_cons, List.map_cons, hname]
        exact congrArg _ hnames
      · rw [timed, List.foldl_cons, hname]
        exact htimes

/-- The times of a run that succeeds are the table of the times of its invocations, and the total is
the time from the first to the last. -/
theorem execute_accounts {summary : Summary} (h : (execute setup ss b w).result = .ok summary) :
    let made := invocations setup ss b w
    made.map (·.command) = ss.map (·.command.name) ∧
      summary.times = Table.ofList (timed w.clock made) ∧
      summary.total = elapsed w.clock (clockAfter w.clock made) ∧
      (execute setup ss b w).world.clock = clockAfter w.clock made := by
  unfold execute at h ⊢
  cases hr : runFrom setup 0 ss ⟨b, .empty, w, []⟩ with
  | mk q r =>
    rw [hr] at h
    cases r with
    | some e => cases h
    | none =>
      cases h
      obtain ⟨hnames, htimes, hclock⟩ := runFrom_accounts hr
      exact ⟨hnames, htimes, congrArg (elapsed w.clock) hclock, hclock⟩

/-- **The accounts of a run add up.**  A run that succeeds has one invocation for each statement.  It
keeps one time for each command that it executed, in the order in which they were first executed, and
the time is that of the command's last invocation.  The total is the time of all invocations, so it
is no less than the times together, and as much if no command is executed twice.  All of this is up
to rounding: a time is near to what the invocation took, and the total is near to the sum of all
times.  It holds without rounding if the clock stood at eighths of a second. -/
theorem execute_timing (setup : Setup) (ss : List Statement) (b : Bindings) (w : World)
    (summary : Summary) (h : (execute setup ss b w).result = .ok summary) :
    let made := invocations setup ss b w
    callsOf (execute setup ss b w).events = made.map (fun i => (i.command, i.arguments)) ∧
      made.map (·.command) = ss.map (·.command.name) ∧
      summary.times.keys = (made.map (·.command)).eraseDups ∧
      (∀ before i after, made = before ++ i :: after → (∀ j ∈ after, j.command ≠ i.command) →
        ∃ time, summary.times.find? i.command = some time ∧
          (let start := clockAfter w.clock before
            let stop := start + i.reply.took
            time = elapsed start stop ∧
            |time - (i.reply.took : Rat) / millisecond| ≤ (stop : Rat) / millisecond / 2 ^ 50) ∧
          (StaysInEighths w.clock made → time = (i.reply.took : Rat) / millisecond)) ∧
      |summary.total - ((timed w.clock made).map Prod.snd).sum| ≤ summary.total / 2 ^ 49 ∧
      summary.times.values.sum ≤ summary.total + summary.total / 2 ^ 49 ∧
      ((ss.map (·.command.name)).Nodup →
        |summary.total - summary.times.values.sum| ≤ summary.total / 2 ^ 49) ∧
      (StaysInEighths w.clock made →
        summary.total = (made.map fun i => (i.reply.took : Rat) / millisecond).sum ∧
        summary.times.values.sum ≤ summary.total ∧
        ((ss.map (·.command.name)).Nodup → summary.times.values.sum = summary.total)) := by
  intro made
  obtain ⟨hcalls, -⟩ := walk_execute setup ss b w
  obtain ⟨hnames, htimes, htotal, -⟩ := execute_accounts h
  have hcommands : (timed w.clock made).map Prod.fst = made.map (·.command) := map_fst_timed ..
  have hnear : |summary.total - ((timed w.clock made).map Prod.snd).sum| ≤
      summary.total / 2 ^ 49 := by
    rw [htotal]
    exact near_of_readings (elapsed_near_readings (clock_le_clockAfter w.clock made))
      (sum_timed_near w.clock made)
  have hkept : summary.times.values.sum ≤ ((timed w.clock made).map Prod.snd).sum := by
    rw [htimes]
    exact Table.sum_values_ofList_le timed_nonneg
  have hall (hn : (ss.map (·.command.name)).Nodup) :
      summary.times.values.sum = ((timed w.clock made).map Prod.snd).sum := by
    rw [htimes]
    exact Table.sum_values_ofList (hcommands ▸ hnames ▸ hn)
  refine ⟨hcalls, hnames, ?_, ?_, hnear, ?_, fun hn => ?_, fun heighths => ?_⟩
  · rw [htimes, Table.keys_ofList, hcommands]
  · intro before i after hmade hlast
    let start := clockAfter w.clock before
    have hlater : i.command ∉ (timed (start + i.reply.took) after).map Prod.fst := by
      rw [map_fst_timed, List.mem_map]
      rintro ⟨j, hj, hji⟩
      exact hlast j hj hji
    have hsplit : timed w.clock made = timed w.clock before ++
        (i.command, elapsed start (start + i.reply.took)) ::
          timed (start + i.reply.took) after := by
      rw [hmade, timed_append]
      rfl
    refine ⟨elapsed start (start + i.reply.took), ?_, ⟨rfl, ?_⟩, fun heighths => ?_⟩
    · rw [htimes, hsplit, Table.find?_ofList_of_last hlater]
    · exact elapsed_took_near start i.reply.took
    · rw [hmade] at heighths
      exact (heighths.after before).elapsed_eq
  · linarith [(abs_le.1 hnear).1]
  · rw [hall hn]
    exact hnear
  · have hsum : summary.total = ((timed w.clock made).map Prod.snd).sum := by
      rw [htotal, elapsed_clockAfter_eighths heighths]
    refine ⟨?_, hsum ▸ hkept, fun hn => (hall hn).trans hsum.symm⟩
    rw [hsum, timed_eighths heighths, List.map_map]
    rfl

/-- Two commands that return their arguments in a row, after as many eighths of a second as these
have characters. -/
def waiting : Setup :=
  let wait : Action := fun _ args host =>
    ⟨.returned (.str (String.join args.positional)), (args.positional.map (·.length)).sum * eighth,
      host⟩
  ⟨⟨[("wait", ⟨wait, none, [], none⟩), ("nap", ⟨wait, none, [], none⟩)], by decide⟩, ⟨[], .empty⟩,
    none, "waiting"⟩

/-- Two calls of one command, with a call of the other between. -/
def waitTwice : List Statement :=
  [⟨none, "wait", [.literal "long"], .empty⟩, ⟨none, "nap", [.literal "x"], .empty⟩,
    ⟨none, "wait", [.literal "no"], .empty⟩]

/-- The calls of `waitTwice`. -/
def waitedTwice : List Invocation :=
  let call (command argument : String) (units : Nat) : Invocation :=
    ⟨command, ⟨[argument], .empty⟩, .initial,
      ⟨.returned (.str argument), units * eighth, .initial⟩⟩
  [call "wait" "long" 4, call "nap" "x" 1, call "wait" "no" 2]

theorem execute_timing_waitTwice :
    ∃ summary, (execute waiting waitTwice .empty .initial).result = .ok summary ∧
      summary.times.keys = ["wait", "nap"] ∧ summary.times.find? "wait" = some 250 ∧
      summary.total = 875 ∧ summary.times.values.sum ≤ summary.total := by
  let nap := 0 + 4 * eighth
  let wait := nap + 1 * eighth
  let stop := wait + 2 * eighth
  let summary : Summary := ⟨.empty,
    ⟨[("wait", elapsed wait stop), ("nap", elapsed nap wait)], by decide⟩, elapsed 0 stop⟩
  have hresult : (execute waiting waitTwice .empty .initial).result = .ok summary := rfl
  have hmade : invocations waiting waitTwice .empty .initial = waitedTwice := rfl
  have heighths : StaysInEighths 0 waitedTwice := by
    refine ⟨⟨⟨7, rfl⟩, by decide⟩, ⟨0, rfl⟩, fun i hi => ?_⟩
    simp only [waitedTwice, List.mem_cons, List.not_mem_nil, or_false] at hi
    rcases hi with rfl | rfl | rfl
    · exact ⟨4, rfl⟩
    · exact ⟨1, rfl⟩
    · exact ⟨2, rfl⟩
  obtain ⟨-, -, -, hlast, -, -, -, hexact⟩ :=
    execute_timing waiting waitTwice .empty .initial summary hresult
  rw [hmade] at hlast hexact
  obtain ⟨time, htime, -, hwait⟩ :=
    hlast (waitedTwice.take 2) ⟨"wait", ⟨["no"], .empty⟩, .initial,
      ⟨.returned (.str "no"), 2 * eighth, .initial⟩⟩ [] rfl fun _ hj => nomatch hj
  obtain ⟨htotal, hsum, -⟩ := hexact heighths
  refine ⟨summary, hresult, rfl, ?_, ?_, hsum⟩
  · rw [htime, hwait heighths]
    norm_num [eighth, millisecond]
  · rw [htotal]
    norm_num [waitedTwice, eighth, millisecond]

/-- In milliseconds the total can be less than the times together, though no command is executed
twice. -/
theorem execute_timing_rounded :
    ∃ summary, (execute (blinking millisecond) [blink, nod] .empty .initial).result =
        .ok summary ∧
      summary.times.keys = ["blink", "nod"] ∧ summary.total < summary.times.values.sum := by
  let start := 0 + 8 * millisecond
  let stop := start + 71 * millisecond
  let summary : Summary := ⟨.empty,
    ⟨[("blink", elapsed 0 start), ("nod", elapsed start stop)], by decide⟩, elapsed 0 stop⟩
  have htotal : elapsed 0 stop < elapsed 0 start + (elapsed start stop + 0) := by decide +kernel
  exact ⟨summary, rfl, rfl, htotal⟩

end Run

end Runbook
