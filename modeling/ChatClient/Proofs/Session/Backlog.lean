import ChatClient.Outstanding
import Mathlib.Data.List.DropRight
import Mathlib.Order.Bounds.Image
/-!
# Backlog — the counts of unanswered requests in closed form

A count stops at zero both when a request fails and when an acknowledgement comes, so after a surplus call it is no
longer what was sent less what failed and what was answered.  It is the most that this difference (`balance`) comes to
over any run of last calls since the reset (`sinceReset`), the empty run among them: the shortest run that attains it
starts where the count was zero for the last time.

A call changes the count by its own balance, as far as zero (`toNat_count_take`), and the greatest of the final balances
changes in the same way (`isGreatest_concat`), so the two agree after every history (`isGreatest_after`).

Counts are 32-bit numbers, so this needs fewer than `2 ^ 32` requests between resets.  That the calls for other commands
play no part (`account_filter`) needs no bound.
-/
namespace ChatClient
namespace Outstanding

variable {o p : Outstanding} {command : Command} {history calls : List Note} {n : Note}

/-! ## What a call does to the counts -/

theorem ext_count {o p : Outstanding} (h : ∀ command, o.count command = p.count command) : o = p := by
  cases o
  cases p
  rw [mk.injEq]
  exact ⟨h .login, h .whisper, h .join, h .shout⟩

theorem count_sent (o : Outstanding) (command d : Command) :
    (o.sent command).count d = if d = command then o.count d + 1 else o.count d := by
  rw [sent, count_set]
  by_cases hd : d = command
  · rw [if_pos hd, if_pos hd, hd]
  · rw [if_neg hd, if_neg hd]

theorem count_failed (o : Outstanding) (command d : Command) :
    (o.failed command).count d = if d = command ∧ o.count d ≠ 0 then o.count d - 1 else o.count d := by
  unfold failed
  by_cases hzero : o.count command = 0
  · rw [if_pos hzero]
    split
    · rename_i h
      exact absurd (h.1 ▸ hzero) h.2
    · rfl
  · rw [if_neg hzero, count_set]
    by_cases hd : d = command
    · rw [if_pos hd, if_pos ⟨hd, hd ▸ hzero⟩, hd]
    · rw [if_neg hd, if_neg fun h => hd h.1]

theorem toNat_count_sent (h : (o.count command).toNat + 1 < 4294967296) (d : Command) :
    ((o.sent command).count d).toNat = (o.count d).toNat + if d = command then 1 else 0 := by
  rw [count_sent]
  split
  · rename_i hd
    rw [hd, UInt32.toNat_add]
    exact Nat.mod_eq_of_lt h
  · rfl

theorem toNat_count_eq_zero : (o.count command).toNat = 0 ↔ o.count command = 0 := by
  rw [← UInt32.toNat_inj]
  rfl

theorem toNat_count_failed (o : Outstanding) (command d : Command) :
    ((o.failed command).count d).toNat = (o.count d).toNat - if d = command then 1 else 0 := by
  rw [count_failed]
  by_cases hd : d = command
  · by_cases hzero : o.count d = 0
    · rw [if_neg fun h => h.2 hzero, if_pos hd, hzero]
      rfl
    · have hpos : 1 ≤ o.count d := by
        rw [UInt32.le_iff_toNat_le]
        exact Nat.one_le_iff_ne_zero.2 fun h => hzero (toNat_count_eq_zero.1 h)
      rw [if_pos ⟨hd, hzero⟩, if_pos hd]
      exact UInt32.toNat_sub_of_le _ _ hpos
  · rw [if_neg fun h => hd h.1, if_neg hd]
    rfl

/-- **An acknowledgement takes one off its count**, unless there is none, just as a failed request does. -/
theorem received_fst (o : Outstanding) (command : Command) : (o.received command).1 = o.failed command := by
  unfold received failed
  split <;> rfl

theorem received_snd (o : Outstanding) (command : Command) :
    (o.received command).2 = if (o.count command).toNat = 0 then .unsolicited else .matched := by
  unfold received
  simp only [toNat_count_eq_zero]
  split <;> rfl

/-- **An acknowledgement is answered by its count** as it was before. -/
theorem answer_received (o : Outstanding) (command : Command) :
    (o.take (.received command)).2 =
      some (if 0 < ((o.count command).toNat : Int) then .matched else .unsolicited) := by
  rw [take, received_snd]
  by_cases hzero : (o.count command).toNat = 0
  · rw [if_pos hzero, if_neg (by omega)]
  · rw [if_neg hzero, if_pos (by omega)]

/-- **A request taken back leaves the counts as they were.** -/
theorem failed_sent (h : (o.count command).toNat + 1 < 4294967296) : (o.sent command).failed command = o := by
  have hcount : ∀ d, ((o.sent command).failed command).count d = o.count d := by
    intro d
    rw [← UInt32.toNat_inj, toNat_count_failed, toNat_count_sent h]
    exact Nat.add_sub_cancel ..
  exact ext_count hcount

theorem after_concat (o : Outstanding) (history : List Note) (n : Note) :
    o.after (history ++ [n]) = ((o.after history).take n).1 := by
  rw [after, List.foldl_append]
  rfl

/-! ## Balances -/

/-- What the calls leave of the requests of a command, if nothing stops at zero. -/
def balance (command : Command) (calls : List Note) : Int :=
  calls.count (.sent command) - (calls.count (.failed command) + calls.count (.received command))

/-- The balances of the last calls, of however many of them. -/
def finalBalances (command : Command) (calls : List Note) : Set Int :=
  {m | ∃ last, last <:+ calls ∧ balance command last = m}

/-- The calls since the last reset, or all of them if there was none. -/
def sinceReset (history : List Note) : List Note := history.rtakeWhile (· ≠ .reset)

theorem balance_sent (command d : Command) : balance command [.sent d] = if command = d then 1 else 0 := by
  cases command <;> cases d <;> rfl

theorem balance_failed (command d : Command) : balance command [.failed d] = -if command = d then 1 else 0 := by
  cases command <;> cases d <;> rfl

theorem balance_received (command d : Command) : balance command [.received d] = -if command = d then 1 else 0 := by
  cases command <;> cases d <;> rfl

theorem balance_append (command : Command) (calls later : List Note) :
    balance command (calls ++ later) = balance command calls + balance command later := by
  simp only [balance, List.count_append]
  omega

theorem balance_le_count (command : Command) (calls : List Note) :
    balance command calls ≤ calls.count (.sent command) := by
  unfold balance
  omega

theorem finalBalances_concat (command : Command) (calls : List Note) (n : Note) :
    finalBalances command (calls ++ [n]) = insert 0 ((· + balance command [n]) '' finalBalances command calls) := by
  ext m
  constructor
  · rintro ⟨last, hlast, rfl⟩
    rcases List.suffix_concat_iff.1 hlast with rfl | ⟨before, rfl, hbefore⟩
    · exact .inl rfl
    · exact .inr ⟨_, ⟨before, hbefore, rfl⟩, (balance_append command before [n]).symm⟩
  · rintro (rfl | ⟨_, ⟨before, hbefore, rfl⟩, rfl⟩)
    · exact ⟨[], List.nil_suffix, rfl⟩
    · exact ⟨before ++ [n], List.suffix_append_self_iff.2 hbefore, balance_append command before [n]⟩

/-- **The greatest final balance changes by the balance of the call**, as far as zero. -/
theorem isGreatest_concat {m : Int} (h : IsGreatest (finalBalances command calls) m) (n : Note) :
    IsGreatest (finalBalances command (calls ++ [n])) (max 0 (m + balance command [n])) := by
  have hmono : Monotone fun m => m + balance command [n] := fun _ _ hle => Int.add_le_add_right hle _
  rw [finalBalances_concat]
  exact (hmono.map_isGreatest h).insert 0

theorem le_count_of_isGreatest {m : Int} (h : IsGreatest (finalBalances command calls) m) :
    m ≤ calls.count (.sent command) := by
  obtain ⟨last, hlast, rfl⟩ := h.1
  have hle := balance_le_count command last
  have hcount := hlast.count_le (.sent command)
  omega

theorem sinceReset_concat (history : List Note) (hn : n ≠ .reset) :
    sinceReset (history ++ [n]) = sinceReset history ++ [n] :=
  List.rtakeWhile_concat_pos _ _ _ (by simpa using hn)

theorem sinceReset_reset (history : List Note) : sinceReset (history ++ [.reset]) = [] :=
  List.rtakeWhile_concat_neg _ _ _ (by simp)

theorem sinceReset_isInfix (history : List Note) : sinceReset history <:+: history :=
  (List.rtakeWhile_suffix _ history).isInfix

theorem reset_not_mem_sinceReset (history : List Note) : .reset ∉ sinceReset history := by
  intro hm
  simpa using List.mem_rtakeWhile_imp hm

/-! ## The counts follow the balances -/

/-- **A call changes a count by its balance**, as far as zero. -/
theorem toNat_count_take (hn : n ≠ .reset)
    (hfits : (o.count command).toNat + [n].count (.sent command) < 4294967296) :
    (((o.take n).1.count command).toNat : Int) = max 0 ((o.count command).toNat + balance command [n]) := by
  cases n with
  | reset => exact absurd rfl hn
  | sent d =>
    change (((o.sent d).count command).toNat : Int) = _
    rw [balance_sent]
    by_cases hd : command = d
    · subst hd
      rw [List.count_singleton_self] at hfits
      rw [toNat_count_sent hfits, if_pos rfl, if_pos rfl]
      omega
    · rw [count_sent, if_neg hd, if_neg hd]
      omega
  | failed d =>
    change (((o.failed d).count command).toNat : Int) = _
    rw [toNat_count_failed, balance_failed]
    split <;> omega
  | received d =>
    change (((o.received d).1.count command).toNat : Int) = _
    rw [received_fst, toNat_count_failed, balance_received]
    split <;> omega

/-- Nothing is outstanding at first, and there is one run of last calls: none. -/
theorem isGreatest_fresh (command : Command) :
    IsGreatest (finalBalances command []) ((({} : Outstanding).count command).toNat : Int) := by
  have hnone : finalBalances command [] = {0} := by
    ext m
    simp [finalBalances, balance, eq_comm]
  rw [hnone]
  cases command <;> exact isGreatest_singleton

/-- **A count is the greatest balance of the last calls** since the reset. -/
theorem isGreatest_after (history : List Note) (command : Command)
    (hfew : ∀ calls, calls <:+: history → .reset ∉ calls → calls.count (.sent command) < 4294967296) :
    IsGreatest (finalBalances command (sinceReset history)) (((after {} history).count command).toNat : Int) := by
  induction history using List.reverseRecOn with
  | nil => exact isGreatest_fresh command
  | append_singleton history n ih =>
    have hbefore := ih fun calls hcalls => hfew calls (hcalls.trans (List.prefix_append history [n]).isInfix)
    rw [after_concat]
    by_cases hn : n = .reset
    · subst hn
      rw [sinceReset_reset]
      exact isGreatest_fresh command
    · -- The count is at most what was sent since the reset, so the bound there leaves room for one more.
      have hfits := hfew _ (sinceReset_isInfix (history ++ [n])) (reset_not_mem_sinceReset _)
      rw [sinceReset_concat history hn] at hfits ⊢
      rw [List.count_append] at hfits
      have hle := le_count_of_isGreatest hbefore
      rw [toNat_count_take hn (by omega)]
      exact isGreatest_concat hbefore n

/-! ## Each command for itself -/

/-- A call that bears on this command: one for it, or a reset. -/
def Note.concerns (command : Command) : Note → Bool
  | sent c | failed c | received c => c = command
  | reset => true

/-- What a history is to one command: each call that bears on it, with its answer and the count behind it. -/
def account (command : Command) (o : Outstanding) : List Note → List (Note × Option Match × UInt32)
  | [] => []
  | n :: later =>
    let next := o.take n
    if n.concerns command then (n, next.2, next.1.count command) :: account command next.1 later
    else account command next.1 later

theorem count_take_of_not_concerns (o : Outstanding) (hn : ¬n.concerns command) :
    (o.take n).1.count command = o.count command := by
  cases n with
  | sent d =>
    have hd : command ≠ d := by simpa [Note.concerns, eq_comm] using hn
    rw [take, count_sent, if_neg hd]
  | failed d =>
    have hd : command ≠ d := by simpa [Note.concerns, eq_comm] using hn
    rw [take, count_failed, if_neg fun h => hd h.1]
  | received d =>
    have hd : command ≠ d := by simpa [Note.concerns, eq_comm] using hn
    rw [take, received_fst, count_failed, if_neg fun h => hd h.1]
  | reset => exact absurd rfl hn

/-- **A call that bears on a command is answered by its count alone**, and changes it by it. -/
theorem take_of_concerns (h : o.count command = p.count command) (hn : n.concerns command) :
    (o.take n).2 = (p.take n).2 ∧ (o.take n).1.count command = (p.take n).1.count command := by
  cases n with
  | sent d => exact ⟨rfl, by rw [take, take, count_sent, count_sent, h]⟩
  | failed d => exact ⟨rfl, by rw [take, take, count_failed, count_failed, h]⟩
  | received d =>
    have hd : d = command := by simpa [Note.concerns] using hn
    subst hd
    refine ⟨?_, by rw [take, take, received_fst, received_fst, count_failed, count_failed, h]⟩
    rw [take, take, received_snd, received_snd, h]
  | reset => exact ⟨rfl, rfl⟩

/-- **The calls for other commands play no part** in what a history is to a command. -/
theorem account_filter (h : o.count command = p.count command) (history : List Note) :
    account command o history = account command p (history.filter (·.concerns command)) := by
  induction history generalizing o p with
  | nil => rfl
  | cons n later ih =>
    by_cases hn : n.concerns command
    · obtain ⟨hanswer, hcount⟩ := take_of_concerns h hn
      rw [List.filter_cons_of_pos hn, account, account, if_pos hn, if_pos hn, hanswer, hcount, ih hcount]
    · rw [List.filter_cons_of_neg hn, account, if_neg hn]
      exact ih ((count_take_of_not_concerns o hn).trans h)

theorem count_after_filter (h : o.count command = p.count command) (history : List Note) :
    (o.after history).count command = (p.after (history.filter (·.concerns command))).count command := by
  induction history generalizing o p with
  | nil => exact h
  | cons n later ih =>
    by_cases hn : n.concerns command
    · rw [List.filter_cons_of_pos hn]
      exact ih (take_of_concerns h hn).2
    · rw [List.filter_cons_of_neg hn]
      exact ih ((count_take_of_not_concerns o hn).trans h)

/-- **The counts in closed form**, for a history in which fewer than `2 ^ 32` requests of the command are sent between
resets.
- The count of the command is the greatest balance of the last calls since the reset.
- An acknowledgement is matched if this greatest balance was positive just before it, and is unsolicited otherwise.
- In a history that has other calls for other commands, put in or left out anywhere, the calls that bear on the command
  have the same answers and leave the same counts. -/
theorem counts_in_closed_form (history : List Note) (command : Command)
    (hfew : ∀ calls, calls <:+: history → .reset ∉ calls → calls.count (.sent command) < 4294967296) :
    IsGreatest (finalBalances command (sinceReset history)) (((after {} history).count command).toNat : Int) ∧
    (∀ before, before ++ [.received command] <+: history →
      ∃ m, IsGreatest (finalBalances command (sinceReset before)) m ∧
        ((after {} before).take (.received command)).2 = some (if 0 < m then .matched else .unsolicited)) ∧
    ∀ other : List Note, other.filter (·.concerns command) = history.filter (·.concerns command) →
      (after {} other).count command = (after {} history).count command ∧
        account command {} other = account command {} history := by
  refine ⟨isGreatest_after history command hfew, fun before hbefore => ?_, fun other hother => ⟨?_, ?_⟩⟩
  · have hinfix : before <:+: history := ((List.prefix_append before _).trans hbefore).isInfix
    have hgreatest := isGreatest_after before command fun calls hcalls => hfew calls (hcalls.trans hinfix)
    exact ⟨_, hgreatest, answer_received _ command⟩
  · rw [count_after_filter rfl other, count_after_filter rfl history, hother]
  · rw [account_filter rfl other, account_filter rfl history, hother]

/-- Two failures for one login, and acknowledgements before and behind them: the sum of all calls since the reset is
negative, but two logins are outstanding when the last acknowledgement comes.  Calls for other commands, left out or put
in, are of no account. -/
theorem counts_in_closed_form_of_surplus :
    let early : List Note := [.sent .login, .sent .shout, .sent .login, .reset, .received .login, .sent .login,
      .received .shout, .failed .login, .failed .login, .sent .login, .sent .login]
    let history := early ++ [.received .login]
    let other : List Note := [.sent .login, .sent .login, .reset, .received .login, .sent .whisper, .sent .login,
      .failed .login, .failed .join, .failed .login, .sent .login, .sent .login, .received .login, .sent .join]
    (∀ calls, calls <:+: history → .reset ∉ calls → calls.count (.sent .login) < 4294967296) ∧
      early ++ [.received .login] <+: history ∧
      other.filter (·.concerns .login) = history.filter (·.concerns .login) ∧
      balance .login (sinceReset history) = -1 ∧ IsGreatest (finalBalances .login (sinceReset history)) 1 ∧
      (∃ m, IsGreatest (finalBalances .login (sinceReset early)) m ∧ 0 < m) ∧
      (after {} other).count .login = 1 ∧ account .login {} other = account .login {} history := by
  intro early history other
  have hfew : ∀ calls, calls <:+: history → .reset ∉ calls → calls.count (.sent .login) < 4294967296 := by
    intro calls hcalls _
    have hlength : history.length < 4294967296 := by decide
    exact Nat.lt_of_le_of_lt (List.count_le_length.trans hcalls.length_le) hlength
  have hlast : early ++ [.received .login] <+: history := List.prefix_rfl
  have hother : other.filter (·.concerns .login) = history.filter (·.concerns .login) := by decide
  obtain ⟨hgreatest, hanswers, hothers⟩ := counts_in_closed_form history .login hfew
  obtain ⟨m, hm, hanswer⟩ := hanswers early hlast
  have hpositive : 0 < m := by
    by_contra hnone
    rw [if_neg hnone] at hanswer
    exact absurd hanswer (by decide)
  obtain ⟨hcount, haccount⟩ := hothers other hother
  exact ⟨hfew, hlast, hother, by decide, hgreatest, ⟨m, hm, hpositive⟩, hcount, haccount⟩

end Outstanding
end ChatClient
