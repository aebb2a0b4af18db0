/- Module: TicketWarden/Guardrails/Quarantine
   source: apps/api/src/guardrails/injection.py
   digest: The strings of a value, and what the quarantine leaves of them. -/

import Mathlib.Data.List.Forall2
import TicketWarden.Guardrails.Scanning

set_option autoImplicit false
set_option relaxedAutoImplicit false

namespace TicketWarden.Guardrails

open Patterns Python

abbrev Ascii (c : Char) : Prop := c.toNat < 128

private theorem signals_agree (db db' : Runtime) :
    List.Forall₂ (fun signal signal' : Signal => signal.label = signal'.label ∧
      signal.weight = signal'.weight ∧ signal.pattern.Agree Ascii signal'.pattern)
      (allSignals db) (allSignals db') := by
  have hspace : ∀ c, Ascii c → db.isSpace c = db'.isSpace c := by
    intro c hc
    rw [db.isSpace_ascii c hc, db'.isSpace_ascii c hc]
  have hword : ∀ c, Ascii c → db.isWord c = db'.isWord c := by
    intro c hc
    rw [isWord_ascii hc, isWord_ascii hc]
  have hedge : (wordEdge db).Agree Ascii (wordEdge db') := hword
  have hgap : (gap db).Agree Ascii (gap db') := ⟨hspace, rfl, rfl, rfl⟩
  have hstar : (Python.star (space db)).Agree Ascii (Python.star (space db')) :=
    ⟨hspace, rfl, rfl, rfl⟩
  have hplus : (plus (wordChar db)).Agree Ascii (plus (wordChar db')) := ⟨hword, rfl, rfl, rfl⟩
  simp [allSignals, highSignals, mediumSignals, lowSignals, hedge, hgap, hstar, hplus]

private theorem normalize_ascii (db : Runtime) {text : List Char} (h : ∀ c ∈ text, Ascii c) :
    normalize db text = text := by
  rw [normalize_eq, db.nfkc_ascii text h, visible_ascii h]

private theorem riskScore_ascii (db db' : Runtime) {text : List Char} (h : ∀ c ∈ text, Ascii c) :
    riskScore db text = riskScore db' text := by
  have hmatched : ∀ {signals signals' : List Signal},
      List.Forall₂ (fun signal signal' : Signal => signal.label = signal'.label ∧
        signal.weight = signal'.weight ∧ signal.pattern.Agree Ascii signal'.pattern)
        signals signals' →
      (∀ signal ∈ signals, signal.pattern.proper = true) →
      (∀ signal ∈ signals', signal.pattern.proper = true) →
      ((signals.filter fun signal => signal.pattern.search text).map Signal.weight =
          (signals'.filter fun signal => signal.pattern.search text).map Signal.weight) ∧
        ((signals.filter fun signal => signal.pattern.search text).map Signal.label =
          (signals'.filter fun signal => signal.pattern.search text).map Signal.label) := by
    intro signals signals' hagree
    induction hagree with
    | nil => exact fun _ _ => ⟨rfl, rfl⟩
    | @cons signal signal' signals signals' hsignal _ ih =>
      intro hproper hproper'
      obtain ⟨hlabel, hweight, hpattern⟩ := hsignal
      obtain ⟨hhead, htail⟩ := List.forall_mem_cons.mp hproper
      obtain ⟨hhead', htail'⟩ := List.forall_mem_cons.mp hproper'
      obtain ⟨hweights, hlabels⟩ := ih htail htail'
      have hsearch := hpattern.search hhead hhead' h
      rw [List.filter_cons, List.filter_cons, hsearch]
      split
      · simp [hweight, hlabel, hweights, hlabels]
      · exact ⟨hweights, hlabels⟩
  obtain ⟨hweights, hlabels⟩ := hmatched (signals_agree db db') (signals_proper db)
    (signals_proper db')
  simp only [riskScore, hweights, hlabels]

theorem isInjection_ascii (db db' : Runtime) {text : String} (h : ∀ c ∈ text.toList, Ascii c) :
    isInjection db text = isInjection db' text := by
  have hscore := riskScore_ascii db db' h
  unfold isInjection detectInjection
  rw [normalize_ascii db h, normalize_ascii db' h, hscore]

private theorem isInjection_quarantineMarker (db : Runtime) :
    isInjection db quarantineMarker = false := by
  have hascii : ∀ c ∈ quarantineMarker.toList, Ascii c := by
    have hall : (quarantineMarker.toList.all fun c => decide (c.toNat < 128)) = true := by decide
    exact fun c hc => of_decide_eq_true (List.all_eq_true.mp hall c hc)
  rw [isInjection_ascii db asciiData hascii]
  decide +kernel

section

variable (db : Runtime)

mutual

/-- What `_clean` computes while the stack lasts: whether a string was flagged, and the value with
flagged strings replaced. -/
def clean : Json → Bool × Json
  | .str s => if isInjection db s then (true, .str quarantineMarker) else (false, .str s)
  | .dict entries =>
    let (flagged, entries) := cleanEntries entries
    (flagged, .dict entries)
  | .list xs =>
    let (flagged, xs) := cleanList xs
    (flagged, .list xs)
  | .null => (false, .null)
  | .bool b => (false, .bool b)
  | .int n => (false, .int n)
  | .float x => (false, .float x)

def cleanEntries : List (String × Json) → Bool × List (String × Json)
  | [] => (false, [])
  | (k, v) :: rest =>
    let (flagged, v) := clean v
    let (flaggedRest, rest) := cleanEntries rest
    (flagged || flaggedRest, (k, v) :: rest)

def cleanList : List Json → Bool × List Json
  | [] => (false, [])
  | v :: rest =>
    let (flagged, v) := clean v
    let (flaggedRest, rest) := cleanList rest
    (flagged || flaggedRest, v :: rest)

end

mutual

def scanFrames : Json → ℕ
  | .str s => 1 + injectionFrames db s
  | .dict entries => 2 + entryFrames entries
  | .list xs => 2 + listFrames xs
  | .null | .bool _ | .int _ | .float _ => 1 + db.builtinFrames

def entryFrames : List (String × Json) → ℕ
  | [] => 0
  | (_, v) :: rest => max (scanFrames v) (entryFrames rest)

def listFrames : List Json → ℕ
  | [] => 0
  | v :: rest => max (scanFrames v) (listFrames rest)

end

/-- The stack has room for the scan of a value. -/
def Scannable (v : Json) : Prop := scanFrames db v ≤ db.stackFrames

instance (v : Json) : Decidable (Scannable db v) := inferInstanceAs (Decidable (_ ≤ _))

private theorem cleanEntries_eq (entries : List (String × Json)) :
    cleanEntries db entries =
      (entries.any fun entry => (clean db entry.2).1,
        entries.map fun entry => (entry.1, (clean db entry.2).2)) := by
  induction entries with
  | nil => rfl
  | cons entry rest ih =>
    rw [cleanEntries, ih]
    rfl

private theorem cleanList_eq (xs : List Json) :
    cleanList db xs = (xs.any fun v => (clean db v).1, xs.map fun v => (clean db v).2) := by
  induction xs with
  | nil => rfl
  | cons v rest ih =>
    rw [cleanList, ih]
    rfl

private theorem entryFrames_le_iff {entries : List (String × Json)} {frames : ℕ} :
    entryFrames db entries ≤ frames ↔ ∀ entry ∈ entries, scanFrames db entry.2 ≤ frames := by
  induction entries with
  | nil => simp [entryFrames]
  | cons entry rest ih => rw [entryFrames, max_le_iff, ih, List.forall_mem_cons]

private theorem listFrames_le_iff {xs : List Json} {frames : ℕ} :
    listFrames db xs ≤ frames ↔ ∀ v ∈ xs, scanFrames db v ≤ frames := by
  induction xs with
  | nil => simp [listFrames]
  | cons v rest ih => rw [listFrames, max_le_iff, ih, List.forall_mem_cons]

private theorem mapM_limited {α β : Type} {f : α → Except Exc β} {g : α → β} {room : α → Prop}
    [DecidablePred room] {exc : Exc} {xs : List α}
    (h : ∀ x ∈ xs, f x = if room x then .ok (g x) else .error exc) :
    xs.mapM f = if ∀ x ∈ xs, room x then .ok (xs.map g) else .error exc := by
  induction xs with
  | nil => simp [pure, Except.pure]
  | cons x xs ih =>
    obtain ⟨hhead, htail⟩ := List.forall_mem_cons.mp h
    rw [List.mapM_cons, hhead, ih htail]
    by_cases hx : room x
    · by_cases hxs : ∀ x ∈ xs, room x
      · rw [if_pos hx, if_pos hxs, if_pos (List.forall_mem_cons.mpr ⟨hx, hxs⟩)]
        rfl
      · rw [if_pos hx, if_neg hxs, if_neg fun hall => hxs (List.forall_mem_cons.mp hall).2]
        rfl
    · rw [if_neg hx, if_neg fun hall => hx (List.forall_mem_cons.mp hall).1]
      rfl

private theorem cleanPlain_eq (frames : ℕ) (value : Json) : cleanPlain db frames value =
    if 1 + db.builtinFrames ≤ frames then .ok (false, value) else .error (stackError db) := by
  unfold cleanPlain
  by_cases hroom : frames < 1 + db.builtinFrames
  · rw [if_pos hroom, if_neg (not_le.mpr hroom)]
  · rw [if_neg hroom, if_pos (not_lt.mp hroom)]

mutual

private theorem cleanWithin_eq : ∀ (v : Json) (frames : ℕ), cleanWithin db frames v =
    if scanFrames db v ≤ frames then .ok (clean db v) else .error (stackError db)
  | .str s => by
    intro frames
    rw [cleanWithin, scanFrames, clean]
    by_cases hroom : frames < 1 + injectionFrames db s
    · rw [if_pos hroom, if_neg (not_le.mpr hroom)]
    · rw [if_neg hroom, if_pos (not_lt.mp hroom)]
      split <;> rfl
  | .dict entries => by
    have hentries := cleanEntriesWithin_eq entries
    rintro (_ | _ | frames)
    · rw [cleanWithin, scanFrames, if_neg (by omega)]
      exact fun _ h => by cases h
    · rw [cleanWithin, scanFrames, if_neg (by omega)]
      exact fun _ h => by cases h
    · have hstep : ∀ entry ∈ entries, (do
          let (flagged, v) ← cleanWithin db frames entry.2
          pure (flagged, (entry.1, v))) =
          if scanFrames db entry.2 ≤ frames then
            .ok ((clean db entry.2).1, (entry.1, (clean db entry.2).2))
          else .error (stackError db) := by
        intro entry hentry
        rw [hentries entry hentry frames]
        split <;> rfl
      rw [cleanWithin, mapM_limited hstep, scanFrames, clean, cleanEntries_eq]
      by_cases hroom : entryFrames db entries ≤ frames
      · rw [if_pos ((entryFrames_le_iff db).mp hroom), if_pos (by omega)]
        simp [bind, Except.bind, pure, Except.pure, Function.comp_def]
      · rw [if_neg (mt (entryFrames_le_iff db).mpr hroom), if_neg (by omega)]
        rfl
  | .list xs => by
    have hxs := cleanListWithin_eq xs
    rintro (_ | _ | frames)
    · rw [cleanWithin, scanFrames, if_neg (by omega)]
      exact fun _ h => by cases h
    · rw [cleanWithin, scanFrames, if_neg (by omega)]
      exact fun _ h => by cases h
    · have hstep := fun v hv => hxs v hv frames
      rw [cleanWithin, mapM_limited hstep, scanFrames, clean, cleanList_eq]
      by_cases hroom : listFrames db xs ≤ frames
      · rw [if_pos ((listFrames_le_iff db).mp hroom), if_pos (by omega)]
        simp [bind, Except.bind, pure, Except.pure, Function.comp_def]
      · rw [if_neg (mt (listFrames_le_iff db).mpr hroom), if_neg (by omega)]
        rfl
  | .null => fun frames => by rw [cleanWithin, cleanPlain_eq, scanFrames, clean]
  | .bool b => fun frames => by rw [cleanWithin, cleanPlain_eq, scanFrames, clean]
  | .int n => fun frames => by rw [cleanWithin, cleanPlain_eq, scanFrames, clean]
  | .float x => fun frames => by rw [cleanWithin, cleanPlain_eq, scanFrames, clean]

private theorem cleanEntriesWithin_eq : ∀ (entries : List (String × Json)), ∀ entry ∈ entries,
    ∀ frames, cleanWithin db frames entry.2 =
      if scanFrames db entry.2 ≤ frames then .ok (clean db entry.2) else .error (stackError db)
  | [] => by simp
  | (k, v) :: rest => List.forall_mem_cons.mpr ⟨cleanWithin_eq v, cleanEntriesWithin_eq rest⟩

private theorem cleanListWithin_eq : ∀ (xs : List Json), ∀ v ∈ xs, ∀ frames,
    cleanWithin db frames v =
      if scanFrames db v ≤ frames then .ok (clean db v) else .error (stackError db)
  | [] => by simp
  | v :: rest => List.forall_mem_cons.mpr ⟨cleanWithin_eq v, cleanListWithin_eq rest⟩

end

theorem scanToolResult_eq (v : Json) : scanToolResult db v =
    if Scannable db v then .ok (clean db v) else .error (stackError db) :=
  cleanWithin_eq db v db.stackFrames

end

mutual

def strings : Json → List String
  | .str s => [s]
  | .dict entries => entryStrings entries
  | .list xs => listStrings xs
  | .null | .bool _ | .int _ | .float _ => []

def entryStrings : List (String × Json) → List String
  | [] => []
  | (_, v) :: rest => strings v ++ entryStrings rest

def listStrings : List Json → List String
  | [] => []
  | v :: rest => strings v ++ listStrings rest

end

/-- No string of the list is flagged. -/
def Unflagged (db : Runtime) (ss : List String) : Prop := ∀ s ∈ ss, isInjection db s = false

section

variable (db : Runtime)

mutual

/-- A cleaned value has no flagged string. -/
theorem unflagged_clean : ∀ v : Json, Unflagged db (strings (clean db v).2)
  | .str s => by
    intro t ht
    rw [clean] at ht
    split at ht
    · obtain rfl := List.mem_singleton.mp ht
      exact isInjection_quarantineMarker db
    · rename_i hs
      obtain rfl := List.mem_singleton.mp ht
      simpa using hs
  | .dict entries => unflagged_cleanEntries entries
  | .list xs => unflagged_cleanList xs
  | .null => by simp [clean, strings, Unflagged]
  | .bool b => by simp [clean, strings, Unflagged]
  | .int n => by simp [clean, strings, Unflagged]
  | .float x => by simp [clean, strings, Unflagged]

private theorem unflagged_cleanEntries :
    ∀ entries : List (String × Json), Unflagged db (entryStrings (cleanEntries db entries).2)
  | [] => by simp [cleanEntries, entryStrings, Unflagged]
  | (k, v) :: rest => by
    have hhead := unflagged_clean v
    have htail := unflagged_cleanEntries rest
    intro s hs
    rcases List.mem_append.mp hs with hs | hs
    · exact hhead s hs
    · exact htail s hs

private theorem unflagged_cleanList :
    ∀ xs : List Json, Unflagged db (listStrings (cleanList db xs).2)
  | [] => by simp [cleanList, listStrings, Unflagged]
  | v :: rest => by
    have hhead := unflagged_clean v
    have htail := unflagged_cleanList rest
    intro s hs
    rcases List.mem_append.mp hs with hs | hs
    · exact hhead s hs
    · exact htail s hs

end

end

mutual

/-- `Quarantined db v w`: `w` is `v` with the flagged strings replaced and nothing else. -/
inductive Quarantined (db : Runtime) : Json → Json → Prop
  | flagged {s : String} (h : isInjection db s = true) :
      Quarantined db (.str s) (.str quarantineMarker)
  | unflagged {s : String} (h : isInjection db s = false) : Quarantined db (.str s) (.str s)
  | null : Quarantined db .null .null
  | bool (b : Bool) : Quarantined db (.bool b) (.bool b)
  | int (n : ℤ) : Quarantined db (.int n) (.int n)
  | float (x : ℚ) : Quarantined db (.float x) (.float x)
  | dict {entries entries' : List (String × Json)} (h : QuarantinedEntries db entries entries') :
      Quarantined db (.dict entries) (.dict entries')
  | list {xs ys : List Json} (h : QuarantinedList db xs ys) : Quarantined db (.list xs) (.list ys)

/-- Entry by entry, with the same keys. -/
inductive QuarantinedEntries (db : Runtime) :
    List (String × Json) → List (String × Json) → Prop
  | nil : QuarantinedEntries db [] []
  | cons (k : String) {v w : Json} {rest rest' : List (String × Json)}
      (hv : Quarantined db v w) (hrest : QuarantinedEntries db rest rest') :
      QuarantinedEntries db ((k, v) :: rest) ((k, w) :: rest')

inductive QuarantinedList (db : Runtime) : List Json → List Json → Prop
  | nil : QuarantinedList db [] []
  | cons {v w : Json} {rest rest' : List Json} (hv : Quarantined db v w)
      (hrest : QuarantinedList db rest rest') : QuarantinedList db (v :: rest) (w :: rest')

end

section

variable (db : Runtime)

mutual

private theorem quarantined_clean : ∀ v : Json, Quarantined db v (clean db v).2
  | .str s => by
    rw [clean]
    split
    · rename_i hs
      exact .flagged hs
    · rename_i hs
      exact .unflagged (by simpa using hs)
  | .dict entries => .dict (quarantined_cleanEntries entries)
  | .list xs => .list (quarantined_cleanList xs)
  | .null => .null
  | .bool b => .bool b
  | .int n => .int n
  | .float x => .float x

private theorem quarantined_cleanEntries : ∀ entries : List (String × Json),
    QuarantinedEntries db entries (cleanEntries db entries).2
  | [] => .nil
  | (k, v) :: rest => .cons k (quarantined_clean v) (quarantined_cleanEntries rest)

private theorem quarantined_cleanList : ∀ xs : List Json, QuarantinedList db xs (cleanList db xs).2
  | [] => .nil
  | v :: rest => .cons (quarantined_clean v) (quarantined_cleanList rest)

end

mutual

private theorem clean_fst : ∀ v : Json, (clean db v).1 = (strings v).any (isInjection db)
  | .str s => by
    rw [clean, strings, List.any_cons, List.any_nil, Bool.or_false]
    split
    · rename_i hs
      exact hs.symm
    · rename_i hs
      simpa using hs
  | .dict entries => cleanEntries_fst entries
  | .list xs => cleanList_fst xs
  | .null => rfl
  | .bool _ => rfl
  | .int _ => rfl
  | .float _ => rfl

private theorem cleanEntries_fst : ∀ entries : List (String × Json),
    (cleanEntries db entries).1 = (entryStrings entries).any (isInjection db)
  | [] => rfl
  | (_, v) :: rest => by
    have hhead := clean_fst v
    have htail := cleanEntries_fst rest
    rw [entryStrings, List.any_append, ← hhead, ← htail]
    rfl

private theorem cleanList_fst : ∀ xs : List Json,
    (cleanList db xs).1 = (listStrings xs).any (isInjection db)
  | [] => rfl
  | v :: rest => by
    have hhead := clean_fst v
    have htail := cleanList_fst rest
    rw [listStrings, List.any_append, ← hhead, ← htail]
    rfl

end

variable {db}

theorem Unflagged.left {ss ts : List String} (h : Unflagged db (ss ++ ts)) : Unflagged db ss :=
  fun s hs => h s (List.mem_append_left _ hs)

theorem Unflagged.right {ss ts : List String} (h : Unflagged db (ss ++ ts)) : Unflagged db ts :=
  fun s hs => h s (List.mem_append_right _ hs)

mutual

theorem clean_of_unflagged : ∀ {v : Json}, Unflagged db (strings v) → clean db v = (false, v)
  | .str s, h => by
    have hs : isInjection db s = false := h s (List.mem_singleton.mpr rfl)
    rw [clean, hs, if_neg Bool.false_ne_true]
  | .dict entries, h => by
    rw [clean, cleanEntries_of_unflagged h]
  | .list xs, h => by
    rw [clean, cleanList_of_unflagged h]
  | .null, _ => rfl
  | .bool _, _ => rfl
  | .int _, _ => rfl
  | .float _, _ => rfl

private theorem cleanEntries_of_unflagged : ∀ {entries : List (String × Json)},
    Unflagged db (entryStrings entries) → cleanEntries db entries = (false, entries)
  | [], _ => rfl
  | (k, v) :: rest, h => by
    rw [cleanEntries, clean_of_unflagged h.left, cleanEntries_of_unflagged h.right]
    rfl

theorem cleanList_of_unflagged : ∀ {xs : List Json},
    Unflagged db (listStrings xs) → cleanList db xs = (false, xs)
  | [], _ => rfl
  | v :: rest, h => by
    rw [cleanList, clean_of_unflagged h.left, cleanList_of_unflagged h.right]
    rfl

end

private theorem clean_flagged_iff {v : Json} :
    (clean db v).1 = true ↔ ∃ s ∈ strings v, isInjection db s = true := by
  rw [clean_fst]
  exact List.any_eq_true

theorem clean_flagged_iff_ne {v : Json} : (clean db v).1 = true ↔ (clean db v).2 ≠ v := by
  constructor
  · intro hflag heq
    obtain ⟨s, hs, hinjection⟩ := clean_flagged_iff.mp hflag
    have hclear := unflagged_clean db v
    rw [heq] at hclear
    exact Bool.false_ne_true ((hclear s hs).symm.trans hinjection)
  · intro hne
    by_contra hflag
    have hclear : Unflagged db (strings v) := by
      intro s hs
      by_contra hinjection
      exact hflag (clean_flagged_iff.mpr ⟨s, hs, by simpa using hinjection⟩)
    exact hne (congrArg Prod.snd (clean_of_unflagged hclear))

theorem clean_of_scan {v : Json} {scan : Bool × Json} (h : scanToolResult db v = .ok scan) :
    clean db v = scan := by
  rw [scanToolResult_eq] at h
  split at h
  · exact Except.ok.inj h
  · cases h

mutual

private theorem scanFrames_clean : ∀ v : Json, scanFrames db (clean db v).2 = scanFrames db v
  | .str s => by
    rw [clean]
    split
    · rename_i hs
      have hne : s ≠ "" := by
        rintro rfl
        cases hs
      simp [scanFrames, injectionFrames, hne, quarantineMarker]
    · rfl
  | .dict entries => congrArg (2 + ·) (entryFrames_cleanEntries entries)
  | .list xs => congrArg (2 + ·) (listFrames_cleanList xs)
  | .null => rfl
  | .bool _ => rfl
  | .int _ => rfl
  | .float _ => rfl

private theorem entryFrames_cleanEntries : ∀ entries : List (String × Json),
    entryFrames db (cleanEntries db entries).2 = entryFrames db entries
  | [] => rfl
  | (_, v) :: rest => congrArg₂ max (scanFrames_clean v) (entryFrames_cleanEntries rest)

private theorem listFrames_cleanList : ∀ xs : List Json,
    listFrames db (cleanList db xs).2 = listFrames db xs
  | [] => rfl
  | v :: rest => congrArg₂ max (scanFrames_clean v) (listFrames_cleanList rest)

end

/-- What the quarantine of a value returns: the value with exactly the flagged strings
replaced, whether there were any, and nothing a second scan would touch; or, where the stack has
no room for the scan, nothing. -/
theorem scanToolResult_quarantines (db : Runtime) (v : Json) :
    (Scannable db v → ∃ flagged s, scanToolResult db v = .ok (flagged, s) ∧ Quarantined db v s ∧
      Unflagged db (strings s) ∧
      (flagged = true ↔ ∃ t ∈ strings v, isInjection db t = true) ∧
      (flagged = true ↔ s ≠ v) ∧ scanToolResult db s = .ok (false, s)) ∧
    (¬ Scannable db v → scanToolResult db v = .error (stackError db)) := by
  constructor
  · intro hroom
    have hagain : Scannable db (clean db v).2 := by
      unfold Scannable
      rw [scanFrames_clean]
      exact hroom
    refine ⟨_, _, (scanToolResult_eq db v).trans (if_pos hroom), quarantined_clean db v,
      unflagged_clean db v, clean_flagged_iff, clean_flagged_iff_ne, ?_⟩
    rw [scanToolResult_eq, if_pos hagain, clean_of_unflagged (unflagged_clean db v)]
  · intro hroom
    rw [scanToolResult_eq, if_neg hroom]

def nested : ℕ → Json
  | 0 => .list []
  | n + 1 => .list [nested n]

private theorem scanFrames_nested (n : ℕ) : scanFrames db (nested n) = 2 * n + 2 := by
  induction n with
  | zero => rfl
  | succ n ih =>
    rw [nested, scanFrames, listFrames, listFrames, ih]
    omega

theorem not_scanToolResult_nested :
    scanToolResult asciiData (nested 500) = .error (stackError asciiData) ∧
      ¬ ∃ flagged s, scanToolResult asciiData (nested 500) = .ok (flagged, s) := by
  have hraises : scanToolResult asciiData (nested 500) = .error (stackError asciiData) := by
    rw [scanToolResult_eq, if_neg]
    rw [Scannable, scanFrames_nested]
    decide
  refine ⟨hraises, ?_⟩
  rintro ⟨flagged, s, hreturns⟩
  rw [hraises] at hreturns
  cases hreturns

end

end TicketWarden.Guardrails
