/-
  Statements that can be exchanged.

  Two statements are `Independent` if neither uses or overwrites what the other
  assigns and their commands leave the host as they found it.  Exchanging two such
  neighbours changes the order in which variables get their values.  A run only asks
  for the values, so what follows does not notice.

  * `invocation?_congr`: an invocation depends on the variables that the command refers
    to and on the host;
  * `Completes.congr`: so statements that complete do so with the same values in
    another order;
  * `Completes.swap`: independent neighbours can be exchanged in statements that
    complete;
  * `timed_swap`: exchanged invocations take nearly the same time;
  * `execute_swap`: **and in a program that succeeds: it leaves the same values, takes
    the same time, and every other statement is given the same**;
  * `execute_swap_later`: of two calls of one command the later one gives the time.
-/
import Runbook.Proofs.Run.Dataflow
import Runbook.Proofs.Run.Timing

namespace Runbook.Run

open Script (Statement Argument)

theorem eq_of_rel_eq {α : Type} {a b : Option α} (h : Option.Rel Eq a b) : a = b := by
  cases h with
  | some h => exact congrArg some h
  | none => rfl

/-! ## What a run asks of the bindings -/

/-- Every variable has the same value. -/
def SameValues (b b' : Bindings) : Prop := ∀ x, b.find? x = b'.find? x

variable {setup : Setup} {b b' : Bindings} {w w' : World}

theorem SameValues.assign (h : SameValues b b') (target : Option String) (v : Value) :
    SameValues (assign b target v) (assign b' target v) := by
  intro x
  rw [find?_assign, find?_assign, h x]

/-- Two assignments to different variables can be exchanged. -/
theorem sameValues_assign_swap {x y : Option String} (h : ∀ name, x = some name → y ≠ some name)
    (u v : Value) : SameValues (assign (assign b y v) x u) (assign (assign b x u) y v) := by
  intro name
  simp only [find?_assign]
  by_cases hx : x = some name
  · rw [if_pos hx, if_neg (h name hx), if_pos hx]
  · rw [if_neg hx, if_neg hx]

section
variable {s : Statement}

theorem attempt_congr (h : ∀ x ∈ s.command.references, b.find? x = b'.find? x) :
    attempt setup s b w = attempt setup s b' w := by
  unfold attempt
  rw [Script.resolve_congr h]

theorem invocation?_congr (h : ∀ x ∈ s.command.references, b.find? x = b'.find? x)
    (hw : w.host = w'.host) : invocation? setup s b w = invocation? setup s b' w' := by
  unfold invocation?
  rw [Script.resolve_congr h, hw]

end

/-- Statements make the same invocations with the same values. -/
theorem invocations_congr : ∀ (ss : List Statement) {b b' : Bindings} (w : World),
    SameValues b b' → invocations setup ss b w = invocations setup ss b' w
  | [], _, _, _, _ => rfl
  | s :: ss, b, b', w, h => by
    rw [invocations, invocations, invocation?_congr (fun x _ => h x) rfl]
    cases invocation? setup s b' w with
    | none => rfl
    | some i =>
      cases ho : i.reply.outcome with
      | returned v => simp only [ho, invocations_congr ss (i.world setup w) (h.assign s.target v)]
      | _ => simp only [ho]

/-- Statements that complete do so with the same values, and leave the same values. -/
theorem Completes.congr {ss : List Statement} {b₁ : Bindings} {w₁ : World}
    {calls : List (String × Arguments)} (h : Completes setup ss b w calls b₁ w₁)
    (hb : SameValues b b') :
    ∃ b₁', Completes setup ss b' w calls b₁' w₁ ∧ SameValues b₁ b₁' := by
  induction h generalizing b' with
  | nil => exact ⟨b', .nil .., hb⟩
  | @cons s ss b b₁ w w₂ w₁ args v calls ha _ ih =>
    obtain ⟨b₁', hc, hsame⟩ := ih (hb.assign s.target v)
    rw [attempt_congr fun x _ => hb x] at ha
    exact ⟨b₁', .cons ha hc, hsame⟩

/-! ## Statements in terms of their invocations -/

section
variable {s : Statement} {ss : List Statement} {calls : List (String × Arguments)}

theorem Completes.cons_invocation {i : Invocation} {v : Value}
    (hi : invocation? setup s b w = some i) (ho : i.reply.outcome = .returned v)
    (h : Completes setup ss (assign b s.target v) (i.world setup w) calls b' w') :
    Completes setup (s :: ss) b w ((s.command.name, i.arguments) :: calls) b' w' :=
  .cons (by rw [attempt_of_invocation hi, ho]) h

/-- The first of statements that complete makes an invocation that returns. -/
theorem Completes.exists_invocation (h : Completes setup (s :: ss) b w calls b' w') :
    ∃ i v rest, invocation? setup s b w = some i ∧ i.reply.outcome = .returned v ∧
      Completes setup ss (Run.assign b s.target v) (i.world setup w) rest b' w' := by
  cases h with
  | @cons _ _ _ _ _ w₁ _ args v rest ha h =>
    obtain ⟨i, hi, -, ho, rfl⟩ := invocation_of_attempt ha
    exact ⟨i, v, rest, hi, ho, h⟩

end

/-! ## Independent statements -/

/-- The command of a statement has no effect but on the clock: it leaves the host as it found it.
What it returns and how long it takes depends on its arguments, and may depend on the host. -/
def Quiet (setup : Setup) (s : Statement) : Prop :=
  ∀ d, setup.registry.find? s.command.name = some d →
    ∀ args host, (d.action setup.disk args host).host = host

/-- Two statements that have nothing to do with each other: neither refers to the variable that the
other assigns, they do not assign the same one, and their commands are quiet. -/
structure Independent (setup : Setup) (s t : Statement) : Prop where
  left_quiet : Quiet setup s
  right_quiet : Quiet setup t
  targets : ∀ x, s.target = some x → t.target ≠ some x
  left_unused : ∀ x ∈ t.command.references, s.target ≠ some x
  right_unused : ∀ x ∈ s.command.references, t.target ≠ some x

/-- A directory in which a call can start is current again after a call that stays in it. -/
theorem finish_of_start {d start : Place} (h : setup.start d = .ok start) :
    setup.finish d start = d := by
  cases hscope : setup.scope? with
  | some path => exact finish_of_scope hscope d start
  | none =>
    rw [start_of_no_scope hscope] at h
    rw [finish_of_no_scope hscope, Except.ok.inj h]

/-- Only the clock moves while a quiet command is invoked. -/
theorem Quiet.world {s : Statement} {i : Invocation} (h : Quiet setup s)
    (hi : invocation? setup s b w = some i) :
    i.world setup w = ⟨w.clock + i.reply.took, w.host⟩ := by
  obtain ⟨d, args, start, hd, -, hs, rfl⟩ := invocation?_eq_some_iff.1 hi
  have hhost := h d hd args { w.host with directory := start }
  simp only [Invocation.world, Invocation.left, hhost, finish_of_start hs]

section
variable {s t : Statement} {i j : Invocation} {u : Value}

/-- The invocations of independent statements are the same in the other order, and leave the same
world. -/
theorem Independent.swap (h : Independent setup s t) (v : Value)
    (hi : invocation? setup s b w = some i)
    (hj : invocation? setup t (assign b s.target u) (i.world setup w) = some j) :
    invocation? setup t b w = some j ∧
      invocation? setup s (assign b t.target v) (j.world setup w) = some i ∧
      i.world setup (j.world setup w) = j.world setup (i.world setup w) := by
  have hiw := h.left_quiet.world hi
  have hjw := h.right_quiet.world hj
  have hj' : invocation? setup t b w = some j := by
    rw [← hj]
    refine invocation?_congr (fun x hx => ?_) (by rw [hiw])
    rw [find?_assign, if_neg (h.left_unused x hx)]
  have hjw' := h.right_quiet.world hj'
  have hi' : invocation? setup s (assign b t.target v) (j.world setup w) = some i := by
    rw [← hi]
    refine invocation?_congr (fun x hx => ?_) (by rw [hjw'])
    rw [find?_assign, if_neg (h.right_unused x hx)]
  refine ⟨hj', hi', ?_⟩
  rw [h.left_quiet.world hi', hjw, hjw', hiw]
  simp only [Nat.add_right_comm]

end

/-- **Independent neighbours can be exchanged** in statements that complete. -/
theorem Completes.swap {s t : Statement} (hst : Independent setup s t) {after : List Statement}
    {b' : Bindings} {w' : World} : ∀ {before : List Statement} {b : Bindings} {w : World}
    {calls : List (String × Arguments)},
    Completes setup (before ++ s :: t :: after) b w calls b' w' →
    ∃ calls' b'' first i j rest,
      Completes setup (before ++ t :: s :: after) b w calls' b'' w' ∧ SameValues b'' b' ∧
      first.length = before.length ∧
      invocations setup (before ++ s :: t :: after) b w = first ++ i :: j :: rest ∧
      invocations setup (before ++ t :: s :: after) b w = first ++ j :: i :: rest
  | [], b, w, calls, h => by
    obtain ⟨i, v, calls₁, hi, hv, h⟩ := h.exists_invocation
    obtain ⟨j, u, calls₂, hj, hu, h⟩ := h.exists_invocation
    obtain ⟨hj', hi', hworld⟩ := hst.swap u hi hj
    have hsame := sameValues_assign_swap (b := b) hst.targets v u
    obtain ⟨b'', hc, hb''⟩ := h.congr fun x => (hsame x).symm
    rw [← hworld] at hc
    have hmade : invocations setup (s :: t :: after) b w = i :: j :: invocations setup after
        (assign (assign b s.target v) t.target u) (j.world setup (i.world setup w)) := by
      rw [invocations_cons hi hv, invocations_cons hj hu]
    have hmade' : invocations setup (t :: s :: after) b w = j :: i :: invocations setup after
        (assign (assign b s.target v) t.target u) (j.world setup (i.world setup w)) := by
      rw [invocations_cons hj' hu, invocations_cons hi' hv, hworld, invocations_congr after _ hsame]
    exact ⟨_, b'', [], i, j, _, .cons_invocation hj' hu (.cons_invocation hi' hv hc),
      fun x => (hb'' x).symm, rfl, hmade, hmade'⟩
  | a :: before, b, w, calls, h => by
    obtain ⟨k, v, calls₁, hk, hv, h⟩ := h.exists_invocation
    obtain ⟨calls', b'', first, i, j, rest, hc, hsame, hlength, hmade, hmade'⟩ := h.swap hst
    refine ⟨_, b'', k :: first, i, j, rest, .cons_invocation hk hv hc, hsame, ?_, ?_, ?_⟩
    · rw [List.length_cons, List.length_cons, hlength]
    · rw [List.cons_append, invocations_cons hk hv, hmade, List.cons_append]
    · rw [List.cons_append, invocations_cons hk hv, hmade', List.cons_append]

/-- The times of exchanged invocations are the same but for the rounding of the readings, unless the
two are of one command and did not take as long. -/
theorem timed_swap (clock : Nat) (first rest : List Invocation) (i j : Invocation) (name : String)
    (h : i.command = name → j.command = name → i.reply.took = j.reply.took) :
    Option.Rel (fun x x' =>
        |x' - x| ≤ (clockAfter clock (first ++ i :: j :: rest) : Rat) / millisecond / 2 ^ 49)
      ((Table.ofList (timed clock (first ++ i :: j :: rest))).find? name)
      ((Table.ofList (timed clock (first ++ j :: i :: rest))).find? name) := by
  generalize hlast : clockAfter clock (first ++ i :: j :: rest) = last
  generalize hstart : clockAfter clock first = start
  have hle : start + i.reply.took + j.reply.took ≤ last := by
    rw [← hlast, clockAfter_append, hstart]
    exact clock_le_clockAfter _ rest
  have htimed : timed clock (first ++ i :: j :: rest) = timed clock first ++
      (i.command, elapsed start (start + i.reply.took)) ::
      (j.command, elapsed (start + i.reply.took) (start + i.reply.took + j.reply.took)) ::
      timed (start + i.reply.took + j.reply.took) rest := by
    rw [timed_append, hstart, timed, timed]
  have htimed' : timed clock (first ++ j :: i :: rest) = timed clock first ++
      (j.command, elapsed start (start + j.reply.took)) ::
      (i.command, elapsed (start + j.reply.took) (start + j.reply.took + i.reply.took)) ::
      timed (start + i.reply.took + j.reply.took) rest := by
    rw [timed_append, hstart, timed, timed, Nat.add_right_comm start i.reply.took]
  have hzero (x : Rat) : |x - x| ≤ (last : Rat) / millisecond / 2 ^ 49 := by
    rw [sub_self, abs_zero]
    positivity
  have hi : |elapsed (start + j.reply.took) (start + j.reply.took + i.reply.took) -
      elapsed start (start + i.reply.took)| ≤ (last : Rat) / millisecond / 2 ^ 49 :=
    elapsed_near_elapsed (by omega) (by omega)
  have hj : |elapsed start (start + j.reply.took) -
      elapsed (start + i.reply.took) (start + i.reply.took + j.reply.took)| ≤
      (last : Rat) / millisecond / 2 ^ 49 :=
    elapsed_near_elapsed (by omega) (by omega)
  rw [htimed, htimed']
  refine Table.find?_ofList_swap hzero ⟨rfl, hi⟩ ⟨rfl, hj⟩ fun hiname hjname => ?_
  rw [h hiname hjname]
  exact hzero _

/-- **Independent neighbours can be exchanged** in a program that succeeds.  The program with the two
in the other order succeeds as well.  It leaves every variable with the same value and the world as
it is after the program, and the total is the same.  Each statement is given the same arguments and
replies the same.  Of every command nearly the same time is kept, and the same if the clock stood at
eighths of a second; but if the two statements call one command and it takes longer for one of them,
it is the later one that counts. -/
theorem execute_swap (setup : Setup) (before after : List Statement) (s t : Statement)
    (b : Bindings) (w : World) (summary : Summary) (hst : Independent setup s t)
    (h : (execute setup (before ++ s :: t :: after) b w).result = .ok summary) :
    let run := execute setup (before ++ s :: t :: after) b w
    let swapped := execute setup (before ++ t :: s :: after) b w
    let call := fun i : Invocation => (i.command, i.arguments)
    ∃ summary' first i j rest,
      swapped.result = .ok summary' ∧ swapped.world = run.world ∧
      (∀ x, summary'.bindings.find? x = summary.bindings.find? x) ∧
      summary'.total = summary.total ∧
      (∀ name, (i.command = name → j.command = name → i.reply.took = j.reply.took) →
        Option.Rel (fun x x' => |x' - x| ≤ (run.world.clock : Rat) / millisecond / 2 ^ 49)
          (summary.times.find? name) (summary'.times.find? name) ∧
        (StaysInEighths w.clock (first ++ i :: j :: rest) →
          summary'.times.find? name = summary.times.find? name)) ∧
      first.length = before.length ∧
      invocations setup (before ++ s :: t :: after) b w = first ++ i :: j :: rest ∧
      invocations setup (before ++ t :: s :: after) b w = first ++ j :: i :: rest ∧
      callsOf run.events = (first ++ i :: j :: rest).map call ∧
      callsOf swapped.events = (first ++ j :: i :: rest).map call := by
  intro run swapped call
  obtain ⟨calls, hc⟩ := completes_of_execute h
  obtain ⟨calls', b', first, i, j, rest, hc', hsame, hlength, hmade, hmade'⟩ := hc.swap hst
  obtain ⟨summary', h', rfl, hworld⟩ := hc'.execute
  obtain ⟨-, htimes, htotal, hclock⟩ := execute_accounts h
  obtain ⟨-, htimes', htotal', hclock'⟩ := execute_accounts h'
  obtain ⟨hcalls, -⟩ := walk_execute setup (before ++ s :: t :: after) b w
  obtain ⟨hcalls', -⟩ := walk_execute setup (before ++ t :: s :: after) b w
  refine ⟨summary', first, i, j, rest, h', hworld, hsame, ?_, fun name hname => ⟨?_, ?_⟩, hlength,
    hmade, hmade', hmade ▸ hcalls, hmade' ▸ hcalls'⟩
  · rw [htotal, htotal', ← hclock, ← hclock', hworld]
  · rw [htimes, htimes', hclock, hmade, hmade']
    exact timed_swap w.clock first rest i j name hname
  · intro heighths
    have heighths' : StaysInEighths w.clock (first ++ j :: i :: rest) := by
      refine ⟨?_, heighths.2.1, fun k hk => heighths.2.2 k ?_⟩
      · rw [← hmade', ← hclock', hworld, hclock, hmade]
        exact heighths.1
      · simpa [or_left_comm] using hk
    rw [htimes, htimes', hmade, hmade', timed_eighths heighths, timed_eighths heighths']
    simp only [List.map_append, List.map_cons]
    exact (eq_of_rel_eq (Table.find?_ofList_swap (fun _ => rfl) ⟨rfl, rfl⟩ ⟨rfl, rfl⟩
      fun hi hj => by rw [hname hi hj])).symm

/-- A call that assigns a variable. -/
def assigning (x name : String) (arguments : List Argument) : Statement :=
  ⟨some x, name, arguments, .empty⟩

theorem quiet_waiting (s : Statement) : Quiet waiting s := by
  intro d hd args host
  have hmem := Table.find?_eq_some_iff.1 hd
  simp only [waiting, List.mem_cons, Prod.mk.injEq, List.not_mem_nil, or_false] at hmem
  rcases hmem with ⟨-, rfl⟩ | ⟨-, rfl⟩
  · rfl
  · rfl

/-- Two calls of different commands, one of which uses a variable. -/
def waitForX : Statement := assigning "y" "wait" [.reference "x", .literal "c"]

def napAlone : Statement := assigning "z" "nap" [.literal "de"]

/-- What comes before the two calls assigns the variable, and what comes after them uses theirs. -/
def assignX : List Statement := [assigning "x" "wait" [.literal "ab"]]

def useBoth : List Statement := [assigning "x" "wait" [.reference "y", .reference "z"]]

theorem execute_swap_waiting :
    Independent waiting waitForX napAlone ∧ ∃ summary summary',
      (execute waiting (assignX ++ waitForX :: napAlone :: useBoth) .empty .initial).result =
        .ok summary ∧
      (execute waiting (assignX ++ napAlone :: waitForX :: useBoth) .empty .initial).result =
        .ok summary' ∧
      summary.bindings.keys = ["x", "y", "z"] ∧
      summary'.bindings.find? "x" = some (.str "abcde") ∧ summary'.total = summary.total := by
  have hst : Independent waiting waitForX napAlone :=
    ⟨quiet_waiting _, quiet_waiting _, by decide, by decide, by decide⟩
  let nap := 0 + 2 * eighth + 3 * eighth
  let last := nap + 2 * eighth
  let stop := last + 5 * eighth
  let summary : Summary :=
    ⟨⟨[("x", .str "abcde"), ("y", .str "abc"), ("z", .str "de")], by decide⟩,
      ⟨[("wait", elapsed last stop), ("nap", elapsed nap last)], by decide⟩, elapsed 0 stop⟩
  have h : (execute waiting (assignX ++ waitForX :: napAlone :: useBoth) .empty .initial).result =
      .ok summary := rfl
  obtain ⟨summary', _, _, _, _, h', -, hbindings, htotal, -⟩ :=
    execute_swap waiting assignX useBoth waitForX napAlone .empty .initial summary hst h
  exact ⟨hst, summary, summary', h, h', rfl, hbindings "x", htotal⟩

/-- Two calls of one command, one of which takes an eighth of a second longer. -/
def waitOnce : Statement := assigning "x" "wait" [.literal "a"]

def waitLonger : Statement := assigning "y" "wait" [.literal "bc"]

/-- The time that is kept for a command is that of the later call. -/
theorem execute_swap_later :
    Independent waiting waitOnce waitLonger ∧ ∃ summary summary',
      (execute waiting [waitOnce, waitLonger] .empty .initial).result = .ok summary ∧
      (execute waiting [waitLonger, waitOnce] .empty .initial).result = .ok summary' ∧
      summary.times.find? "wait" = some 250 ∧ summary'.times.find? "wait" = some 125 := by
  have hst : Independent waiting waitOnce waitLonger :=
    ⟨quiet_waiting _, quiet_waiting _, by decide, by decide, by decide⟩
  let once := 0 + 1 * eighth
  let twice := 0 + 2 * eighth
  let summary : Summary := ⟨⟨[("x", .str "a"), ("y", .str "bc")], by decide⟩,
    ⟨[("wait", elapsed once (once + 2 * eighth))], by decide⟩, elapsed 0 (once + 2 * eighth)⟩
  let summary' : Summary := ⟨⟨[("y", .str "bc"), ("x", .str "a")], by decide⟩,
    ⟨[("wait", elapsed twice (twice + 1 * eighth))], by decide⟩, elapsed 0 (twice + 1 * eighth)⟩
  have htimes : elapsed once (once + 2 * eighth) = 250 ∧
      elapsed twice (twice + 1 * eighth) = 125 := by decide +kernel
  exact ⟨hst, summary, summary', rfl, rfl, congrArg some htimes.1, congrArg some htimes.2⟩

end Runbook.Run
