import Mathlib.Data.Finset.Card
import Mathlib.Data.List.Infix
import Mathlib.Logic.Function.Basic
import XXChain.Lib.Run

/-!
# XXChain — threshold voting with a changing roster

A protocol pattern in its own terms. A roster of voters, which may change at any time,
casts votes on keyed motions; a motion is approved, and executed at once, when the votes in
its favour reach the threshold of that moment, and rejected when the votes against leave too
few voters for it. Every cast, decision and execution leaves an entry on the log.

`Write` lists the ways such a ballot changes, guards included. The facts about whole runs
are derived from it:

* **`Write.inv`** — `Inv`, which ties every tally to the log: votes are distinct and were
  cast by members of the roster, and a motion is executed once exactly when it is approved;
* **`Closed.run`** — a decided or expired motion never changes again and is never executed
  again.
-/

namespace XXChain.ThresholdVote

open Function Relation

variable {K A : Type}

/-! ## Ballots -/

inductive Outcome where
  | pending
  | approved
  | rejected
  deriving DecidableEq, Repr

/-- The votes on one motion and the time from which it takes no more. -/
structure Tally (A : Type) where
  inFavour : List A
  against : List A
  outcome : Outcome
  deadline : Nat
  deriving DecidableEq

/-- The tally of a motion nobody has voted on. -/
def Tally.opened (deadline : Nat) : Tally A :=
  { inFavour := [], against := [], outcome := .pending, deadline }

def Tally.cast (t : Tally A) (voter : A) (inFavour : Bool) : Tally A :=
  if inFavour then { t with inFavour := t.inFavour ++ [voter] }
  else { t with against := t.against ++ [voter] }

/-- What a run leaves on record. `entitled` says whether the voter was on the roster when
it voted; a decision keeps the roster and the threshold it was taken with. -/
inductive Entry (K A : Type) where
  | cast (key : K) (voter : A) (inFavour entitled : Bool)
  | decided (key : K) (tally : Tally A) (roster : Finset A) (threshold : Nat)
  | executed (key : K) (voters : List A) (threshold : Nat)
  deriving DecidableEq

/-- Whether the entry is an execution of the motion `key`. -/
def Entry.executes [DecidableEq K] (key : K) : Entry K A → Bool
  | .executed k _ _ => k = key
  | _ => false

/-- How often the motion `key` was executed. -/
def executions [DecidableEq K] (key : K) (log : List (Entry K A)) : Nat :=
  log.countP (Entry.executes key)

/-- The voting state; the newest log entry comes first. -/
@[ext]
structure Ballot (K A : Type) where
  now : Nat
  threshold : Nat
  roster : Finset A
  tallies : K → Option (Tally A)
  log : List (Entry K A)

/-- A tally that takes no more votes: decided, or past its deadline. -/
def Tally.IsClosed (t : Tally A) (now : Nat) : Prop :=
  t.outcome ≠ .pending ∨ t.deadline ≤ now

/-- The motion `key` has the tally `t`, and `t` takes no more votes. -/
def Closed (b : Ballot K A) (key : K) (t : Tally A) : Prop :=
  b.tallies key = some t ∧ t.IsClosed b.now

variable [DecidableEq K]

/-- The ballot after the tally of `key` becomes `t`, with `entries` logged. -/
def Ballot.record (b : Ballot K A) (key : K) (t : Tally A) (entries : List (Entry K A)) :
    Ballot K A :=
  { b with tallies := update b.tallies key (some t), log := entries ++ b.log }

@[simp]
theorem Ballot.record_log (b : Ballot K A) (key : K) (t : Tally A) (entries) :
    (b.record key t entries).log = entries ++ b.log := rfl

@[simp]
theorem Ballot.record_tallies_self (b : Ballot K A) (key : K) (t : Tally A) (entries) :
    (b.record key t entries).tallies key = some t := by
  simp [Ballot.record]

@[simp]
theorem Ballot.record_tallies_of_ne (b : Ballot K A) {key k : K} (hne : k ≠ key)
    (t : Tally A) (entries) : (b.record key t entries).tallies k = b.tallies k := by
  simp [Ballot.record, hne]

variable [DecidableEq A]

/-- The ways a ballot changes. A motion is opened by its first vote, with a deadline
`lifetime` later, and the size of the roster is only known modulo `capacity`. -/
inductive Write (lifetime capacity : Nat) : Ballot K A → Ballot K A → Prop where
  | setThreshold (b : Ballot K A) (t : Nat) (hpos : 0 < t) :
      Write lifetime capacity b { b with threshold := t }
  | enrol (b : Ballot K A) (a : A) (hnew : a ∉ b.roster) :
      Write lifetime capacity b { b with roster := insert a b.roster }
  | strike (b : Ballot K A) (a : A) (hmem : a ∈ b.roster) :
      Write lifetime capacity b { b with roster := b.roster.erase a }
  | cast (b : Ballot K A) (key : K) (a : A) (inFavour : Bool) (t : Tally A)
      (hget : (b.tallies key).getD (.opened (b.now + lifetime)) = t)
      (hopen : ¬t.IsClosed b.now) (hmem : a ∈ b.roster)
      (hfresh : a ∉ t.inFavour ++ t.against) :
      Write lifetime capacity b
        (b.record key (t.cast a inFavour) [.cast key a inFavour true])
  | approve (b : Ballot K A) (key : K) (t : Tally A) (hget : b.tallies key = some t)
      (hopen : ¬t.IsClosed b.now) (hcount : b.threshold ≤ t.inFavour.length) :
      Write lifetime capacity b
        (b.record key { t with outcome := .approved }
          [.executed key t.inFavour b.threshold,
            .decided key { t with outcome := .approved } b.roster b.threshold])
  | reject (b : Ballot K A) (key : K) (t : Tally A) (hget : b.tallies key = some t)
      (hopen : ¬t.IsClosed b.now)
      (hcount : b.roster.card % capacity < t.against.length + b.threshold) :
      Write lifetime capacity b
        (b.record key { t with outcome := .rejected }
          [.decided key { t with outcome := .rejected } b.roster b.threshold])
  | tick (b : Ballot K A) (n : Nat) (hle : b.now ≤ n) :
      Write lifetime capacity b { b with now := n }

variable {lifetime capacity : Nat} {b b' : Ballot K A}

/-! ## Closed motions stay as they are -/

omit [DecidableEq A] in
@[simp]
theorem executions_cons (key : K) (e : Entry K A) (log : List (Entry K A)) :
    executions key (e :: log) = executions key log + if e.executes key then 1 else 0 := by
  simp [executions, List.countP_cons]

omit [DecidableEq A] in
/-- Writing another motion keeps a closed one. -/
theorem Closed.record {key k : K} {t t' : Tally A} {entries : List (Entry K A)}
    (hc : Closed b key t) (hne : key ≠ k) : Closed (b.record k t' entries) key t := by
  refine ⟨?_, hc.2⟩
  rw [Ballot.record_tallies_of_ne b hne]
  exact hc.1

omit [DecidableEq K] [DecidableEq A] in
/-- A motion whose tally takes votes is not the closed one. -/
theorem Closed.ne {key k : K} {t t' : Tally A} (hc : Closed b key t)
    (hget : b.tallies k = some t') (hopen : ¬t'.IsClosed b.now) : key ≠ k := by
  rintro rfl
  rw [hc.1] at hget
  cases hget
  exact hopen hc.2

/-- One write leaves a closed motion closed, with its tally, and does not execute it. -/
theorem Closed.write {key : K} {t : Tally A} (hc : Closed b key t)
    (h : Write lifetime capacity b b') :
    Closed b' key t ∧ executions key b'.log = executions key b.log := by
  cases h with
  | setThreshold | enrol | strike => exact ⟨hc, rfl⟩
  | cast k a inFavour t' hget hopen hmem hfresh =>
    have hne : key ≠ k := by
      rintro rfl
      rw [hc.1] at hget
      cases hget
      exact hopen hc.2
    exact ⟨hc.record hne, by simp [Entry.executes]⟩
  | approve k t' hget hopen hcount =>
    have hne := hc.ne hget hopen
    exact ⟨hc.record hne, by simp [Entry.executes, hne.symm]⟩
  | reject k t' hget hopen hcount =>
    have hne := hc.ne hget hopen
    exact ⟨hc.record hne, by simp [Entry.executes]⟩
  | tick n hle => exact ⟨⟨hc.1, hc.2.imp_right fun h => h.trans hle⟩, rfl⟩

/-- A whole run leaves a closed motion closed, with its tally, and does not execute it. -/
theorem Closed.run {key : K} {t : Tally A} (hc : Closed b key t)
    (h : ReflTransGen (Write lifetime capacity) b b') :
    Closed b' key t ∧ executions key b'.log = executions key b.log := by
  induction h with
  | refl => exact ⟨hc, rfl⟩
  | tail _ hlast ih =>
    obtain ⟨hc', hexec⟩ := ih
    obtain ⟨hc'', hexec'⟩ := hc'.write hlast
    exact ⟨hc'', hexec'.trans hexec⟩

/-! ## The ballot and its log -/

/-- The count that a decision with this outcome rests on. -/
def Tally.Justified (t : Tally A) (capacity : Nat) (roster : Finset A) (threshold : Nat) :
    Prop :=
  match t.outcome with
  | .pending => False
  | .approved => threshold ≤ t.inFavour.length
  | .rejected => roster.card % capacity < t.against.length + threshold

/-- Every vote of the tally is distinct and was cast by a member of the roster, as `log`
shows. -/
structure Tally.Recorded (t : Tally A) (key : K) (log : List (Entry K A)) : Prop where
  distinct : (t.inFavour ++ t.against).Nodup
  inFavour : ∀ a ∈ t.inFavour, .cast key a true true ∈ log
  against : ∀ a ∈ t.against, .cast key a false true ∈ log

/-- What the entries before it say in support of an entry. -/
def Entry.SupportedBy (capacity : Nat) (past : List (Entry K A)) : Entry K A → Prop
  | .cast _ _ _ entitled => entitled = true
  | .decided key t roster threshold =>
    t.Justified capacity roster threshold ∧ t.Recorded key past ∧ 0 < threshold
  | .executed key voters threshold => ∃ t roster, .decided key t roster threshold ∈ past ∧
    t.outcome = .approved ∧ t.inFavour = voters

/-- Every entry of the log is supported by the entries before it. -/
def Sound (capacity : Nat) : List (Entry K A) → Prop
  | [] => True
  | e :: past => e.SupportedBy capacity past ∧ Sound capacity past

omit [DecidableEq K] [DecidableEq A] in
theorem Sound.supportedBy {log past : List (Entry K A)} {e : Entry K A}
    (h : Sound capacity log) (hsuffix : e :: past <:+ log) : e.SupportedBy capacity past := by
  induction log with
  | nil => simp at hsuffix
  | cons x log ih =>
    rcases List.suffix_cons_iff.mp hsuffix with heq | hsuffix
    · cases heq
      exact h.1
    · exact ih h.2 hsuffix

/-- The tallies agree with the log, and the log is sound. -/
structure Inv (capacity : Nat) (b : Ballot K A) : Prop where
  threshold_pos : 0 < b.threshold
  recorded : ∀ key t, b.tallies key = some t → t.Recorded key b.log
  executions_eq : ∀ key, executions key b.log =
    if ∃ t, b.tallies key = some t ∧ t.outcome = .approved then 1 else 0
  complete : ∀ key t, b.tallies key = some t → t.outcome ≠ .pending →
    ∃ roster threshold, .decided key t roster threshold ∈ b.log
  stays : ∀ key t roster threshold, .decided key t roster threshold ∈ b.log →
    b.tallies key = some t
  sound : Sound capacity b.log

/-! ### Votes -/

omit [DecidableEq K] [DecidableEq A] in
/-- A longer log records at least as much. -/
theorem Tally.Recorded.mono {t : Tally A} {key : K} {log log' : List (Entry K A)}
    (h : t.Recorded key log) (hsub : log ⊆ log') : t.Recorded key log' :=
  ⟨h.distinct, fun a ha => hsub (h.inFavour a ha), fun a ha => hsub (h.against a ha)⟩

omit [DecidableEq K] [DecidableEq A] in
/-- Deciding a tally changes none of its votes. -/
theorem Tally.Recorded.decided {t : Tally A} {key : K} {log : List (Entry K A)}
    (h : t.Recorded key log) (outcome : Outcome) :
    Tally.Recorded { t with outcome := outcome } key log :=
  ⟨h.distinct, h.inFavour, h.against⟩

omit [DecidableEq K] [DecidableEq A] in
theorem Tally.Recorded.opened (deadline : Nat) (key : K) (log : List (Entry K A)) :
    (Tally.opened deadline : Tally A).Recorded key log := by
  constructor <;> simp [Tally.opened]

omit [DecidableEq K] [DecidableEq A] in
/-- A fresh vote keeps the tally recorded once the log shows it. -/
theorem Tally.Recorded.cast {t : Tally A} {key : K} {log : List (Entry K A)}
    (h : t.Recorded key log) {a : A} (inFavour : Bool)
    (hfresh : a ∉ t.inFavour ++ t.against) :
    (t.cast a inFavour).Recorded key (.cast key a inFavour true :: log) := by
  have hold := h.mono (List.subset_cons_self (.cast key a inFavour true) log)
  cases inFavour with
  | true =>
    -- the new vote is last of its own list, and first up to a permutation
    have hperm : (t.inFavour ++ [a] ++ t.against).Perm (a :: (t.inFavour ++ t.against)) := by
      simp
    refine ⟨?_, fun x hx => ?_, hold.against⟩
    · exact hperm.nodup_iff.mpr (List.nodup_cons.mpr ⟨hfresh, h.distinct⟩)
    · rcases List.mem_append.mp hx with hx | hx
      · exact hold.inFavour x hx
      · simp [List.mem_singleton.mp hx]
  | false =>
    have hperm : (t.inFavour ++ (t.against ++ [a])).Perm (a :: (t.inFavour ++ t.against)) := by
      rw [← List.append_assoc]
      exact List.perm_append_singleton a _
    refine ⟨?_, hold.inFavour, fun x hx => ?_⟩
    · exact hperm.nodup_iff.mpr (List.nodup_cons.mpr ⟨hfresh, h.distinct⟩)
    · rcases List.mem_append.mp hx with hx | hx
      · exact hold.against x hx
      · simp [List.mem_singleton.mp hx]

omit [DecidableEq K] [DecidableEq A] in
@[simp]
theorem Tally.cast_outcome (t : Tally A) (a : A) (inFavour : Bool) :
    (t.cast a inFavour).outcome = t.outcome := by
  cases inFavour <;> rfl

omit [DecidableEq K] [DecidableEq A] in
theorem Tally.pending_of_open {t : Tally A} {now : Nat} (hopen : ¬t.IsClosed now) :
    t.outcome = .pending := by
  by_contra hne
  exact hopen (Or.inl hne)

omit [DecidableEq K] [DecidableEq A] in
/-- A motion with an open tally is pending. -/
theorem pending_of_open {key : K} {t : Tally A} (hget : b.tallies key = some t)
    (hopen : ¬t.IsClosed b.now) :
    ∀ t', b.tallies key = some t' → t'.outcome = .pending := by
  intro t' hk
  rw [hget] at hk
  cases hk
  exact Tally.pending_of_open hopen

/-! ### One write keeps the invariant -/

omit [DecidableEq A] in
/-- Only the threshold, the tallies and the log matter. -/
theorem Inv.congr (h : Inv capacity b) (hpos : 0 < b'.threshold)
    (htallies : b'.tallies = b.tallies) (hlog : b'.log = b.log) : Inv capacity b' := by
  obtain ⟨_, hrec, hexec, hcomplete, hstay, hsound⟩ := h
  refine ⟨hpos, ?_, ?_, ?_, ?_, ?_⟩ <;> simpa only [htallies, hlog]

omit [DecidableEq A] in
/-- A motion that has no tally, or a pending one, has no decision on the log. -/
theorem Inv.not_decided (h : Inv capacity b) {key : K}
    (hpending : ∀ t, b.tallies key = some t → t.outcome = .pending) {t : Tally A}
    {roster : Finset A} {threshold : Nat} : .decided key t roster threshold ∉ b.log := by
  intro hmem
  obtain ⟨before, past, hlog⟩ := List.append_of_mem hmem
  have hsuffix : .decided key t roster threshold :: past <:+ b.log := ⟨before, hlog.symm⟩
  have hjust := (h.sound.supportedBy hsuffix).1
  rw [Tally.Justified, hpending t (h.stays key t roster threshold hmem)] at hjust
  exact hjust

omit [DecidableEq A] in
/-- A write to the tally of a pending motion keeps the invariant when the new entries
support it: they are sound, decide nothing but `key` and execute it only if it becomes
approved. -/
theorem Inv.record (h : Inv capacity b) {key : K} {t : Tally A} {entries : List (Entry K A)}
    (hpending : ∀ t, b.tallies key = some t → t.outcome = .pending)
    (hrecorded : t.Recorded key (entries ++ b.log))
    (hexec : ∀ k, executions k (entries ++ b.log) =
      executions k b.log + if k = key ∧ t.outcome = .approved then 1 else 0)
    (hcomplete : t.outcome ≠ .pending →
      ∃ roster threshold, .decided key t roster threshold ∈ entries)
    (hdecided : ∀ k t' roster threshold, .decided k t' roster threshold ∈ entries →
      k = key ∧ t' = t)
    (hsound : Sound capacity (entries ++ b.log)) : Inv capacity (b.record key t entries) := by
  have hsub : b.log ⊆ entries ++ b.log := List.subset_append_right _ _
  refine ⟨h.threshold_pos, ?_, ?_, ?_, ?_, hsound⟩
  · intro k t' hk
    by_cases hkey : k = key
    · subst hkey
      rw [Ballot.record_tallies_self, Option.some.injEq] at hk
      exact hk ▸ hrecorded
    · rw [Ballot.record_tallies_of_ne b hkey] at hk
      exact (h.recorded k t' hk).mono hsub
  · intro k
    rw [Ballot.record_log, hexec, h.executions_eq]
    by_cases hkey : k = key
    · -- the motion was pending, so it had not been executed
      subst hkey
      rw [if_neg]
      · simp
      · rintro ⟨t', hk, happroved⟩
        rw [hpending t' hk] at happroved
        cases happroved
    · simp [hkey]
  · intro k t' hk hne
    by_cases hkey : k = key
    · subst hkey
      rw [Ballot.record_tallies_self, Option.some.injEq] at hk
      subst hk
      obtain ⟨roster, threshold, hmem⟩ := hcomplete hne
      exact ⟨roster, threshold, List.mem_append_left _ hmem⟩
    · rw [Ballot.record_tallies_of_ne b hkey] at hk
      obtain ⟨roster, threshold, hmem⟩ := h.complete k t' hk hne
      exact ⟨roster, threshold, hsub hmem⟩
  · intro k t' roster threshold hmem
    rcases List.mem_append.mp hmem with hnew | hold
    · obtain ⟨rfl, rfl⟩ := hdecided k t' roster threshold hnew
      exact Ballot.record_tallies_self b k t' entries
    · -- an older decision is about another motion
      have hkey : k ≠ key := by
        rintro rfl
        exact h.not_decided hpending hold
      rw [Ballot.record_tallies_of_ne b hkey]
      exact h.stays k t' roster threshold hold

omit [DecidableEq A] in
/-- A ballot without motions has the invariant. -/
theorem Inv.empty (hpos : 0 < b.threshold) (htallies : b.tallies = fun _ => none)
    (hlog : b.log = []) : Inv capacity b := by
  refine ⟨hpos, ?_, ?_, ?_, ?_, ?_⟩ <;> simp [htallies, hlog, executions, Sound]

/-- One write keeps the invariant. -/
theorem Write.inv (h : Write lifetime capacity b b') (hinv : Inv capacity b) :
    Inv capacity b' := by
  cases h with
  | setThreshold t hpos => exact hinv.congr hpos rfl rfl
  | enrol | strike | tick => exact hinv.congr hinv.threshold_pos rfl rfl
  | cast key a inFavour t hget hopen hmem hfresh =>
    have hpending := Tally.pending_of_open hopen
    -- the tally that receives the vote is a stored one or a new one
    have hstored : (∀ t', b.tallies key = some t' → t' = t) ∧ t.Recorded key b.log := by
      cases hk : b.tallies key with
      | none =>
        rw [hk] at hget
        exact ⟨by simp, hget ▸ Tally.Recorded.opened _ key b.log⟩
      | some t' =>
        rw [hk, Option.getD_some] at hget
        exact ⟨by simp [hget], hget ▸ hinv.recorded key t' hk⟩
    refine hinv.record (fun t' hk => hstored.1 t' hk ▸ hpending)
      (hstored.2.cast inFavour hfresh) ?_ ?_ ?_ ⟨rfl, hinv.sound⟩
    · intro k
      simp [Entry.executes, hpending]
    · intro hne
      simp [hpending] at hne
    · simp
  | approve key t hget hopen hcount =>
    have hrecorded := (hinv.recorded key t hget).decided .approved
    refine hinv.record (pending_of_open hget hopen) ?_ ?_ ?_ ?_ ⟨?_, ?_, hinv.sound⟩
    · exact hrecorded.mono (List.subset_append_right _ _)
    · intro k
      simp [Entry.executes, eq_comm]
    · intro _
      exact ⟨b.roster, b.threshold, by simp⟩
    · intro k t' roster threshold hmem
      simp only [List.mem_cons, reduceCtorEq, Entry.decided.injEq, List.not_mem_nil, or_false,
        false_or] at hmem
      exact ⟨hmem.1, hmem.2.1⟩
    · -- the execution is supported by the decision right before it
      exact ⟨_, b.roster, List.mem_cons_self, rfl, rfl⟩
    · exact ⟨hcount, hrecorded, hinv.threshold_pos⟩
  | reject key t hget hopen hcount =>
    have hrecorded := (hinv.recorded key t hget).decided .rejected
    refine hinv.record (pending_of_open hget hopen) ?_ ?_ ?_ ?_ ⟨?_, hinv.sound⟩
    · exact hrecorded.mono (List.subset_append_right _ _)
    · intro k
      simp [Entry.executes]
    · intro _
      exact ⟨b.roster, b.threshold, by simp⟩
    · intro k t' roster threshold hmem
      simp only [List.mem_cons, Entry.decided.injEq, List.not_mem_nil, or_false] at hmem
      exact ⟨hmem.1, hmem.2.1⟩
    · exact ⟨hcount, hrecorded, hinv.threshold_pos⟩

/-! ## What the log says about a run -/

omit [DecidableEq A] in
theorem Inv.executions_le_one (h : Inv capacity b) (key : K) : executions key b.log ≤ 1 := by
  rw [h.executions_eq key]
  split <;> omega

omit [DecidableEq A] in
/-- An execution was backed by at least the threshold of that moment, which is positive,
in distinct votes of members of the roster. -/
theorem Inv.executed_backed (h : Inv capacity b) {key : K} {voters : List A}
    {threshold : Nat} {past : List (Entry K A)}
    (hsuffix : .executed key voters threshold :: past <:+ b.log) :
    1 ≤ threshold ∧ threshold ≤ voters.length ∧ voters.Nodup ∧
      ∀ a ∈ voters, .cast key a true true ∈ past := by
  obtain ⟨t, roster, hmem, happroved, rfl⟩ := h.sound.supportedBy hsuffix
  obtain ⟨before, earlier, rfl⟩ := List.append_of_mem hmem
  have hdecided : .decided key t roster threshold :: earlier <:+ b.log :=
    (List.suffix_append before _).trans ((List.suffix_cons _ _).trans hsuffix)
  obtain ⟨hjust, hrecorded, hpos⟩ := h.sound.supportedBy hdecided
  rw [Tally.Justified, happroved] at hjust
  refine ⟨hpos, hjust, (List.nodup_append.mp hrecorded.distinct).1, fun a ha => ?_⟩
  exact List.mem_append_right _ (List.mem_cons_of_mem _ (hrecorded.inFavour a ha))

end XXChain.ThresholdVote
