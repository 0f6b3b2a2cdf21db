/-
  Short durations, told exactly.

  Of a library that puts durations into words it is assumed that it lists the whole
  units of a duration below thirty days (`ListsUnits`).  These are the digits of the
  duration in the units from days down to milliseconds; those that are zero are left out.
  The conjunction before the last part becomes a comma, and the parts can be told from
  the words that are left: a comma ends each part, and the digits of a part end where its
  unit begins.

  * `accounts_wholeUnits`: the digits that are not zero make up the duration;
  * `spelled_inj` and `joined_inj`: a part is told from its words, and so are parts that
    are joined;
  * `replaceFrom_conjoined`: no blank in the words of a part stands before an `a`, so that
    nothing but the conjunction is replaced;
  * `text_exact`: **the words of a duration are its counts, and no two durations have the
    same words**;
  * `listsUnits_precise`: what is assumed of a library holds of `precise`.
-/
import Mathlib.Algebra.GroupWithZero.Nat
import Mathlib.Data.List.Chain
import Runbook.Proofs.Decimal.Written
import Runbook.Run.Duration

namespace Runbook.Run

/-! ## What parts come to -/

/-- The milliseconds of a unit. -/
def TimeUnit.length : TimeUnit → Nat
  | year => 31536000000
  | month => 2635200000
  | day => 86400000
  | hour => 3600000
  | minute => 60000
  | second => 1000
  | millisecond => 1

/-- The next larger unit. -/
def TimeUnit.larger? : TimeUnit → Option TimeUnit
  | year => none
  | month => some year
  | day => some month
  | hour => some day
  | minute => some hour
  | second => some minute
  | millisecond => some second

/-- The milliseconds of a part. -/
def worth (part : TimeUnit × Nat) : Nat := part.2 * part.1.length

/-- Parts are an account of a number of milliseconds: larger units before smaller ones, none
of them counted up to the next larger one, and no zero but for nothing at all. -/
structure Accounts (n : Nat) (parts : List (TimeUnit × Nat)) : Prop where
  decreasing : parts.Pairwise fun p q => q.1.length < p.1.length
  units : ∀ part ∈ parts, part.1 ∈ [TimeUnit.day, .hour, .minute, .second, .millisecond]
  below : ∀ part ∈ parts, ∀ larger, part.1.larger? = some larger → worth part < larger.length
  positive : if n = 0 then parts = [(.millisecond, 0)] else ∀ part ∈ parts, 0 < part.2
  total : (parts.map worth).sum = n

/-- A part in words. -/
def spelled (part : TimeUnit × Nat) : String :=
  toString part.2 ++ " " ++ if part.2 = 1 then part.1.name else part.1.name ++ "s"

/-- The milliseconds of thirty days. -/
def thirtyDays : Nat := 2592000000

/-- The counts of the units that a short duration has. -/
def shortCounts (n : Nat) : List (TimeUnit × Nat) :=
  [(.day, n / 86400000), (.hour, n / 3600000 % 24), (.minute, n / 60000 % 60),
    (.second, n / 1000 % 60), (.millisecond, n % 1000)]

section
variable {n : Nat} (hn : n < thirtyDays)
include hn

/-- The counts of a short duration are below the next larger unit. -/
theorem below_shortCounts : ∀ part ∈ shortCounts n, ∀ larger, part.1.larger? = some larger →
    worth part < larger.length := by
  unfold thirtyDays at hn
  intro part hp larger hl
  simp only [shortCounts, List.mem_cons, List.not_mem_nil, or_false] at hp
  rcases hp with rfl | rfl | rfl | rfl | rfl
  all_goals
    cases hl
    simp only [worth, TimeUnit.length]
    omega

end

theorem sum_shortCounts (n : Nat) : ((shortCounts n).map worth).sum = n := by
  have hsum (a b c d e : Nat) : [a, b, c, d, e].sum = a + b + c + d + e := by
    simp only [List.sum_cons, List.sum_nil, Nat.add_zero, Nat.add_assoc]
  have hdigits : n / 86400000 * 86400000 + n / 3600000 % 24 * 3600000 + n / 60000 % 60 * 60000 +
      n / 1000 % 60 * 1000 + n % 1000 * 1 = n := by omega
  rw [shortCounts, List.map_cons, List.map_cons, List.map_cons, List.map_cons, List.map_cons,
    List.map_nil, hsum]
  exact hdigits

/-- Leaving zeros out changes no sum. -/
theorem sum_filter_worth : ∀ parts : List (TimeUnit × Nat),
    ((parts.filter fun part => part.2 ≠ 0).map worth).sum = (parts.map worth).sum
  | [] => rfl
  | (u, c) :: parts => by
    have ih := sum_filter_worth parts
    by_cases hc : c = 0
    · simpa [hc, worth] using ih
    · simpa [hc] using ih

/-- The whole units of a short duration that are not zero, the largest first; of nothing at all, no
milliseconds. -/
def wholeUnits (n : Nat) : List (TimeUnit × Nat) :=
  if n = 0 then [(.millisecond, 0)] else (shortCounts n).filter fun part => part.2 ≠ 0

/-- The units of nothing at all. -/
theorem accounts_zero : Accounts 0 (wholeUnits 0) where
  decreasing := List.pairwise_singleton _ _
  units := by decide
  below := by rintro _ hp _ hl; cases List.mem_singleton.1 hp; cases hl; decide
  positive := rfl
  total := rfl

/-- **The whole units of a short duration are an account of it.** -/
theorem accounts_wholeUnits {n : Nat} (hn : n < thirtyDays) : Accounts n (wholeUnits n) := by
  by_cases hpos : n = 0
  · rw [hpos]
    exact accounts_zero
  have hmem {part : TimeUnit × Nat} (hp : part ∈ (shortCounts n).filter fun part => part.2 ≠ 0) :
      part ∈ shortCounts n ∧ part.2 ≠ 0 := by
    simpa using List.mem_filter.1 hp
  have hunits : ∀ part ∈ shortCounts n,
      part.1 ∈ [TimeUnit.day, .hour, .minute, .second, .millisecond] := by
    simp [shortCounts]
  have hdecreasing : (shortCounts n).Pairwise fun p q => q.1.length < p.1.length := by
    simp [shortCounts, TimeUnit.length]
  rw [wholeUnits, if_neg hpos]
  exact {
    decreasing := hdecreasing.filter _
    units := fun part hp => hunits part (hmem hp).1
    below := fun part hp => below_shortCounts hn part (hmem hp).1
    positive := by
      rw [if_neg hpos]
      exact fun part hp => Nat.pos_of_ne_zero (hmem hp).2
    total := (sum_filter_worth _).trans (sum_shortCounts n) }

/-- What is assumed of a library: of a duration below thirty days it lists the whole units that are
not zero, the largest first, with commas between them and a conjunction before the last. -/
def ListsUnits (library : Int → Except DurationFault String) : Prop :=
  ∀ n : Nat, n < thirtyDays → library n = .ok (conjoined ((wholeUnits n).map spelled))

/-! ## Words -/

/-- What stands after the digits of a part. -/
def unitWords (part : TimeUnit × Nat) : List Char :=
  ' ' :: (if part.2 = 1 then part.1.name else part.1.name ++ "s").toList

theorem toList_spelled (part : TimeUnit × Nat) :
    (spelled part).toList = Nat.toDigits 10 part.2 ++ unitWords part := by
  simp [spelled, unitWords, Nat.repr_eq_ofList_toDigits]

/-- Whether a part has a count of one shows in its digits, and its unit in what follows. -/
theorem spelled_inj {p q : TimeUnit × Nat} (h : spelled p = spelled q) : p = q := by
  have hread (p : TimeUnit × Nat) :
      Nat.ofDigitChars 10 ((spelled p).toList.takeWhile Char.isDigit) 0 = p.2 := by
    rw [toList_spelled, List.takeWhile_append_of_pos (Decimal.isDigit_toDigits _)]
    have hblank : (unitWords p).takeWhile Char.isDigit = [] := rfl
    rw [hblank, List.append_nil, Nat.ofDigitChars_toDigits (by decide) (by decide)]
  have hcount : p.2 = q.2 := by rw [← hread p, h, hread q]
  have hwords := congrArg String.toList h
  rw [toList_spelled, toList_spelled, hcount] at hwords
  have hunit := (List.cons.inj (List.append_cancel_left hwords)).2
  obtain ⟨u, c⟩ := p
  obtain ⟨v, d⟩ := q
  cases hcount
  have hname : u.name.toList = v.name.toList := by
    dsimp only at hunit
    split at hunit
    · exact hunit
    · simpa using hunit
  have hinj : ∀ u v : TimeUnit, u.name.toList = v.name.toList → u = v := by
    rintro ⟨⟩ ⟨⟩ <;> decide
  rw [hinj u v hname]

/-- A property of the characters of all units in words. -/
theorem forall_unitWords {P : List Char → Prop} (h : ∀ u : TimeUnit,
    P (' ' :: u.name.toList) ∧ P (' ' :: (u.name ++ "s").toList)) (part : TimeUnit × Nat) :
    P (unitWords part) := by
  unfold unitWords
  split
  · exact (h part.1).1
  · exact (h part.1).2

theorem comma_not_mem_spelled (part : TimeUnit × Nat) : ',' ∉ (spelled part).toList := by
  rw [toList_spelled]
  intro h
  rcases List.mem_append.1 h with hd | hw
  · exact absurd (Decimal.isDigit_toDigits _ _ hd) (by decide)
  · exact forall_unitWords (P := (',' ∉ ·)) (by rintro ⟨⟩ <;> decide) part hw

/-- Parts in words, one after another. -/
def joined (parts : List (TimeUnit × Nat)) : String := ", ".intercalate (parts.map spelled)

theorem toList_joined (p : TimeUnit × Nat) (ps : List (TimeUnit × Nat)) :
    (joined (p :: ps)).toList =
      [','].intercalate ((spelled p).toList :: ps.map fun q => ' ' :: (spelled q).toList) := by
  rw [joined, String.toList_intercalate]
  induction ps generalizing p with
  | nil => simp
  | cons q qs ih =>
    have hrow := ih q
    simp only [List.map_cons, List.intercalate_cons_cons] at hrow ⊢
    rw [hrow]
    cases qs <;> simp [List.intercalate_cons_cons]

/-- **Parts are told from their words.** -/
theorem joined_inj {ps qs : List (TimeUnit × Nat)} (hp : ps ≠ []) (hq : qs ≠ [])
    (h : joined ps = joined qs) : ps = qs := by
  obtain ⟨p, ps, rfl⟩ := List.exists_cons_of_ne_nil hp
  obtain ⟨q, qs, rfl⟩ := List.exists_cons_of_ne_nil hq
  have hsplit (p : TimeUnit × Nat) (ps : List (TimeUnit × Nat)) :
      (joined (p :: ps)).toList.splitOn ',' =
        (spelled p).toList :: ps.map fun q => ' ' :: (spelled q).toList := by
    rw [toList_joined]
    have hrest : ∀ l ∈ ps.map fun q => ' ' :: (spelled q).toList, ',' ∉ l :=
      List.forall_mem_map.2 fun q _ => List.not_mem_cons_of_ne_of_not_mem (by decide)
        (comma_not_mem_spelled q)
    exact List.splitOn_intercalate _ (List.forall_mem_cons.2 ⟨comma_not_mem_spelled p, hrest⟩)
      (List.cons_ne_nil _ _)
  have hrow := hsplit p ps
  rw [h, hsplit q qs] at hrow
  obtain ⟨hfirst, hrest⟩ := List.cons.inj hrow
  rw [spelled_inj (String.toList_inj.1 hfirst)]
  refine congrArg _ (List.map_injective_iff.2 (fun a b hab => ?_) hrest.symm)
  exact spelled_inj (String.toList_inj.1 (List.cons.inj hab).2)

/-! ## Conjunctions -/

/-- No blank stands before an `a`. -/
def Unjoined (cs : List Char) : Prop := cs.IsChain fun a b => a = ' ' → b ≠ 'a'

theorem Unjoined.append {s t : List Char} (hs : Unjoined s) (ht : Unjoined t)
    (h : s.getLast? ≠ some ' ' ∨ t.head? ≠ some 'a') : Unjoined (s ++ t) := by
  refine List.isChain_append.2 ⟨hs, ht, ?_⟩
  rintro a ha b hb rfl rfl
  exact h.elim (· ha) (· hb)

theorem unjoined_of_not_mem : ∀ {cs : List Char}, ' ' ∉ cs → Unjoined cs
  | [], _ => .nil
  | [c], _ => .singleton c
  | _ :: _ :: _, h =>
    .cons_cons (fun hc => absurd (hc ▸ List.mem_cons_self) h)
      (unjoined_of_not_mem fun hm => h (.tail _ hm))

theorem unjoined_spelled (part : TimeUnit × Nat) : Unjoined (spelled part).toList := by
  have hdigits : ' ' ∉ Nat.toDigits 10 part.2 := fun hm =>
    absurd (Decimal.isDigit_toDigits _ _ hm) (by decide)
  rw [toList_spelled]
  refine (unjoined_of_not_mem hdigits).append ?_ (.inr (by simp [unitWords]))
  refine forall_unitWords (P := Unjoined) ?_ part
  unfold Unjoined
  rintro ⟨⟩ <;> decide

/-- The words of a part begin with a digit. -/
theorem head?_spelled (part : TimeUnit × Nat) (more : List Char) :
    ((spelled part).toList ++ more).head? ≠ some 'a' := by
  obtain ⟨c, cs, hcs⟩ := List.exists_cons_of_ne_nil (@Nat.toDigits_ne_nil part.2 10)
  have hc : c ≠ 'a' := by
    rintro rfl
    exact absurd (Decimal.isDigit_toDigits part.2 'a' (hcs ▸ List.mem_cons_self)) (by decide)
  rw [toList_spelled, hcs]
  simpa using hc

theorem unjoined_intercalate : ∀ {ls : List (List Char)}, (∀ l ∈ ls, Unjoined l) →
    Unjoined ([','].intercalate ls)
  | [], _ => .nil
  | [l], h => by
    rw [List.intercalate_singleton]
    exact h l List.mem_cons_self
  | l :: l' :: ls, h => by
    rw [List.intercalate_cons_cons]
    have hfirst : Unjoined (l ++ [',']) :=
      (h l List.mem_cons_self).append (.singleton ',') (.inr (by decide))
    exact hfirst.append (unjoined_intercalate fun m hm => h m (.tail _ hm)) (.inl (by simp))

theorem unjoined_joined : ∀ parts : List (TimeUnit × Nat), Unjoined (joined parts).toList
  | [] => .nil
  | p :: ps => by
    have hblank (q : TimeUnit × Nat) : Unjoined (' ' :: (spelled q).toList) := by
      have hhead := head?_spelled q []
      rw [List.append_nil] at hhead
      exact .append (.singleton ' ') (unjoined_spelled q) (.inr hhead)
    rw [toList_joined]
    exact unjoined_intercalate (List.forall_mem_cons.2 ⟨unjoined_spelled p,
      List.forall_mem_map.2 fun q _ => hblank q⟩)

theorem not_and_joined (parts : List (TimeUnit × Nat)) :
    ¬ " and ".toList <:+: (joined parts).toList := by
  rintro ⟨before, after, h⟩
  have hchain : Unjoined (before ++ " and ".toList ++ after) := h ▸ unjoined_joined parts
  have hword : Unjoined " and ".toList := hchain.left_of_append.right_of_append
  revert hword
  unfold Unjoined
  decide

/-- Where no blank stands before an `a` there is no conjunction to replace. -/
theorem replaceFrom_append : ∀ {s t : List Char}, Unjoined s →
    s.getLast? ≠ some ' ' ∨ t.head? ≠ some 'a' →
    Text.replaceFrom " and ".toList ", ".toList 0 (s ++ t) =
      s ++ Text.replaceFrom " and ".toList ", ".toList 0 t
  | [], _, _, _ => rfl
  | c :: s, t, hs, h => by
    have hnext : c = ' ' → (s ++ t).head? ≠ some 'a' := by
      rintro rfl
      cases s with
      | nil => exact h.resolve_left fun hlast => hlast rfl
      | cons d s => simpa using (List.isChain_cons_cons.1 hs).1 rfl
    have hprefix : " and ".toList.isPrefixOf (c :: (s ++ t)) = false := by
      cases hst : s ++ t with
      | nil => simp [List.isPrefixOf]
      | cons d u =>
        rw [hst] at hnext
        by_cases hc : c = ' '
        · have hd : d ≠ 'a' := by simpa using hnext hc
          simp [List.isPrefixOf, Ne.symm hd]
        · simp [List.isPrefixOf, Ne.symm hc]
    have hs' : Unjoined s := List.IsChain.tail hs
    have h' : s.getLast? ≠ some ' ' ∨ t.head? ≠ some 'a' := by
      cases s with
      | nil => exact .inl (by simp)
      | cons d s => simpa using h
    rw [List.cons_append, Text.replaceFrom, hprefix, replaceFrom_append hs' h']
    rfl

theorem joined_cons_cons (p q : TimeUnit × Nat) (ps : List (TimeUnit × Nat)) :
    (joined (p :: q :: ps)).toList =
      (spelled p).toList ++ ", ".toList ++ (joined (q :: ps)).toList := by
  simp [joined, String.toList_intercalate]

theorem conjoined_cons_cons_cons (p q r : TimeUnit × Nat) (ps : List (TimeUnit × Nat)) :
    (conjoined ((p :: q :: r :: ps).map spelled)).toList =
      (spelled p).toList ++ ", ".toList ++ (conjoined ((q :: r :: ps).map spelled)).toList := by
  simp [conjoined]

/-- The words of parts begin with those of the first. -/
theorem exists_conjoined_eq (p : TimeUnit × Nat) (ps : List (TimeUnit × Nat)) :
    ∃ more, (conjoined ((p :: ps).map spelled)).toList = (spelled p).toList ++ more := by
  match ps with
  | [] => exact ⟨[], by simp [conjoined]⟩
  | [q] => exact ⟨" and ".toList ++ (spelled q).toList, by simp [conjoined]⟩
  | q :: r :: ps => exact ⟨_, by rw [conjoined_cons_cons_cons, List.append_assoc]⟩

/-- **The conjunction between parts is replaced, and nothing else.** -/
theorem replaceFrom_conjoined : ∀ (p : TimeUnit × Nat) (ps : List (TimeUnit × Nat)),
    Text.replaceFrom " and ".toList ", ".toList 0 (conjoined ((p :: ps).map spelled)).toList =
      (joined (p :: ps)).toList
  | p, [] => by
    have hlast := replaceFrom_append (t := []) (unjoined_spelled p) (.inr (by simp))
    simpa [conjoined, joined, Text.replaceFrom] using hlast
  | p, [q] => by
    have hwords : (conjoined ([p, q].map spelled)).toList =
        (spelled p).toList ++ (" and ".toList ++ (spelled q).toList) := by simp [conjoined]
    have hword (t : List Char) : Text.replaceFrom " and ".toList ", ".toList 0 (" and ".toList ++ t) =
        ", ".toList ++ Text.replaceFrom " and ".toList ", ".toList 0 t := rfl
    have hlast := replaceFrom_append (t := []) (unjoined_spelled q) (.inr (by simp))
    rw [List.append_nil] at hlast
    rw [hwords, replaceFrom_append (unjoined_spelled p) (.inr (by simp)), hword, hlast]
    simp [joined, Text.replaceFrom]
  | p, q :: r :: ps => by
    obtain ⟨more, hmore⟩ := exists_conjoined_eq q (r :: ps)
    have hhead : (conjoined ((q :: r :: ps).map spelled)).toList.head? ≠ some 'a' :=
      hmore ▸ head?_spelled q more
    have hfirst : Unjoined ((spelled p).toList ++ ", ".toList) :=
      (unjoined_spelled p).append (by unfold Unjoined; decide) (.inr (by decide))
    rw [conjoined_cons_cons_cons, replaceFrom_append hfirst (.inr hhead),
      replaceFrom_conjoined q (r :: ps), joined_cons_cons p q (r :: ps)]

/-! ## Durations -/

theorem Accounts.ne_nil {n : Nat} {parts : List (TimeUnit × Nat)} (h : Accounts n parts) :
    parts ≠ [] := by
  rintro rfl
  have hpositive := h.positive
  rw [← h.total] at hpositive
  cases hpositive

theorem daysOf_natCast (n : Nat) : daysOf n = (n / 86400000 : Nat) := by
  rw [daysOf, Int.fdiv_eq_ediv_of_nonneg _ (by decide)]
  rfl

theorem checkDays_of_lt {n : Nat} (hn : n < thirtyDays) : checkDays n = .ok () := by
  unfold thirtyDays at hn
  have hword : wordLimit = 2147483648 := rfl
  have hmax : maxDays = 999999999 := rfl
  unfold checkDays
  rw [daysOf_natCast, hword, hmax]
  dsimp only
  rw [if_neg (by omega), if_neg (by omega)]

section
variable {library : Int → Except DurationFault String} (hlibrary : ListsUnits library)
include hlibrary

/-- The words of a short duration are those of its units. -/
theorem textBy_of_lt {m : Milliseconds} {n : Nat} (hm : m.rounded = .ok n) (hn : n < thirtyDays) :
    m.textBy library = .ok (joined (wholeUnits n)) := by
  obtain ⟨p, ps, hparts⟩ := List.exists_cons_of_ne_nil (accounts_wholeUnits hn).ne_nil
  have hwords : Text.replaceAll " and " ", " (conjoined ((wholeUnits n).map spelled)) =
      joined (wholeUnits n) := by
    rw [hparts, Text.replaceAll, replaceFrom_conjoined, String.ofList_toList]
  rw [Milliseconds.textBy, hm]
  simp only [bind, Except.bind, checkDays_of_lt hn, hlibrary n hn, pure, Except.pure, hwords]

/-- **The words of a short duration tell it exactly.**  They are an account of its milliseconds in
units from days down, with commas between the parts and no conjunction, and the words of
another short duration are others. -/
theorem text_exact {m : Milliseconds} {n : Nat} (hm : m.rounded = .ok n) (hn : n < thirtyDays) :
    (∃ parts, Accounts n parts ∧ m.textBy library = .ok (joined parts) ∧
      ¬ " and ".toList <:+: (joined parts).toList) ∧
    ∀ (m' : Milliseconds) (n' : Nat), m'.rounded = .ok n' → n' < thirtyDays →
      m'.textBy library = m.textBy library → n' = n := by
  have haccounts := accounts_wholeUnits hn
  refine ⟨⟨wholeUnits n, haccounts, textBy_of_lt hlibrary hm hn, not_and_joined _⟩,
    fun m' n' hm' hn' h => ?_⟩
  have haccounts' := accounts_wholeUnits hn'
  rw [textBy_of_lt hlibrary hm hn, textBy_of_lt hlibrary hm' hn'] at h
  have hparts : wholeUnits n' = wholeUnits n :=
    joined_inj haccounts'.ne_nil haccounts.ne_nil (Except.ok.inj h)
  rw [← haccounts'.total, hparts, haccounts.total]

end

/-! ## A library -/

theorem countsOf_eq {n : Nat} (hn : n < thirtyDays) :
    countsOf n = (.year, 0) :: (.month, 0) :: shortCounts n := by
  unfold thirtyDays at hn
  have hdays : n / 86400000 < 30 := by omega
  have hyear : n / 86400000 % 365 = n / 86400000 := Nat.mod_eq_of_lt (by omega)
  have hmonth : 2 * (n / 86400000) % 61 = 2 * (n / 86400000) := Nat.mod_eq_of_lt (by omega)
  simp only [countsOf, shortCounts, dayLength, hyear, hmonth, List.cons.injEq, Prod.mk.injEq,
    true_and, and_true]
  omega

theorem partsOf_eq {n : Nat} (hn : n < thirtyDays) : partsOf n = wholeUnits n := by
  have hkept : (countsOf n).filter (fun part => part.2 ≠ 0) =
      (shortCounts n).filter fun part => part.2 ≠ 0 := by
    rw [countsOf_eq hn]
    rfl
  unfold partsOf
  rw [hkept, wholeUnits]
  cases h : (shortCounts n).filter fun part => part.2 ≠ 0 with
  | cons p ps =>
    rw [if_neg]
    rintro rfl
    cases h
  | nil =>
    have hsum := (sum_filter_worth _).trans (sum_shortCounts n)
    rw [h] at hsum
    have hzero : n = 0 := hsum.symm
    rw [if_pos hzero]

/-- A count below a thousand has no commas. -/
theorem groupedDigits_of_lt {n : Nat} (h : n < 1000) : groupedDigits n = toString n := by
  have hlength : (Nat.toDigits 10 n).reverse.length ≤ 3 := by
    rw [List.length_reverse]
    exact (Nat.length_toDigits_le_iff (by decide) (by decide)).2 h
  have hgroup (ds : List Char) (h : ds.length ≤ 3) : groupedDigits.group ds = ds := by
    rw [groupedDigits.group.eq_2]
    rintro a b c d ds rfl
    simp only [List.length_cons] at h
    omega
  rw [groupedDigits, hgroup _ hlength, List.reverse_reverse, Nat.toString_eq_repr,
    Nat.repr_eq_ofList_toDigits]

theorem partText_of_lt {part : TimeUnit × Nat} (h : part.2 < 1000) : partText part = spelled part := by
  rw [partText, spelled, groupedDigits_of_lt h]
  split <;> simp [String.append_assoc]

/-- The counts of an account are small enough for plain digits. -/
theorem Accounts.lt {n : Nat} {parts : List (TimeUnit × Nat)} (h : Accounts n parts)
    {part : TimeUnit × Nat} (hp : part ∈ parts) : part.2 < 1000 := by
  have hbelow := h.below part hp
  obtain ⟨u, c⟩ := part
  have hu := h.units (u, c) hp
  simp only [worth] at hbelow
  simp only [List.mem_cons, List.not_mem_nil, or_false] at hu
  rcases hu with rfl | rfl | rfl | rfl | rfl
  all_goals
    have hc := hbelow _ rfl
    simp only [TimeUnit.length] at hc
    omega

/-- What is assumed of a library holds of `precise`. -/
theorem listsUnits_precise : ListsUnits precise := by
  intro n hn
  have hparts : (partsOf n).map partText = (wholeUnits n).map spelled := by
    rw [partsOf_eq hn]
    exact List.map_congr_left fun part hp => partText_of_lt ((accounts_wholeUnits hn).lt hp)
  have hcalendar : calendarDays = (739000, 2912000) := rfl
  unfold thirtyDays at hn
  unfold precise
  rw [daysOf_natCast, hcalendar, Int.natAbs_natCast, hparts]
  dsimp only
  rw [if_neg (by omega)]

/-- Two minutes and five seconds, and one millisecond more. -/
theorem text_exact_minutes :
    ListsUnits precise ∧
    (∃ parts, Accounts 125000 parts ∧ (Milliseconds.whole 125000).text = .ok (joined parts) ∧
      ¬ " and ".toList <:+: (joined parts).toList) ∧
    (Milliseconds.whole 125001).text ≠ (Milliseconds.whole 125000).text := by
  have hn : 125000 < thirtyDays := by decide
  have hn' : 125001 < thirtyDays := by decide
  obtain ⟨hparts, hother⟩ := text_exact listsUnits_precise (m := .whole 125000) rfl hn
  exact ⟨listsUnits_precise, hparts,
    fun h => absurd (hother (.whole 125001) 125001 rfl hn' h) (by decide)⟩

example : precise 3661000 = .ok "1 hour, 1 minute and 1 second" := by cbv

example : (Milliseconds.whole 3661000).text = .ok "1 hour, 1 minute, 1 second" := by cbv

end Runbook.Run
