import Aggregation.Proofs.Json.Printable
import Aggregation.Proofs.Storage
import Aggregation.Proofs.Text.Lines

/-! One dead letter is one line.

An office opens dead letter files, the same one again if it is asked to, and hands each letter to
one of its queues. Whatever it is asked, a file that was empty or ended in a newline holds its old
lines and then one line for each letter handed to a queue on it, in that order (`one_line_each`):
a letter's line has no newline in it, as JSON text holds no control characters. -/
namespace Aggregation.DeadLetters

/-! ### An office -/

/-- The queues that were opened, the first one first, and the files. -/
structure Office where
  queues : List DeadLetters
  storage : Storage

inductive Act where
  | openFile (path : String)
  /-- A message for a queue, numbered in the order of opening. -/
  | write (queue : Nat) (now : Timestamp) (m : Message) (fault : Fault)

/-- What a queue was handed. -/
structure Letter where
  queue : Nat
  path : String
  line : List Char

namespace Office

/-- An office that has opened nothing yet. -/
def new (s : Storage) : Office :=
  ⟨[], s⟩

def act (o : Office) : Act → Office
  | .openFile path =>
    match openFile path o.storage with
    | .ok (q, s) => ⟨o.queues ++ [q], s⟩
    | .error _ => o
  | .write queue now m fault =>
    match o.queues[queue]? with
    | some q =>
      let (_, q, s) := q.write now m fault o.storage
      ⟨o.queues.set queue q, s⟩
    | none => o

/-- The letter that a queue of the office is handed. -/
def letter? (o : Office) : Act → Option Letter
  | .openFile _ => none
  | .write queue now m fault =>
    (o.queues[queue]?).map fun q => ⟨queue, q.path, line now m fault⟩

def run (o : Office) (acts : List Act) : Office :=
  acts.foldl act o

/-- All letters, in the order in which they were handed over. -/
def letters (o : Office) : List Act → List Letter
  | [] => []
  | a :: rest => (o.letter? a).toList ++ (o.act a).letters rest

end Office

/-- The lines that go to a file. -/
def linesFor (s : Storage) (name : String) (letters : List Letter) : List (List Char) :=
  (letters.filter fun l => s.file? l.path = some name).map Letter.line

/-- The number of letters that a queue was handed. -/
def through (queue : Nat) (letters : List Letter) : Nat :=
  letters.countP fun l => l.queue = queue

theorem linesFor_append (s : Storage) (name : String) (ls more : List Letter) :
    linesFor s name (ls ++ more) = linesFor s name ls ++ linesFor s name more := by
  rw [linesFor, List.filter_append, List.map_append, linesFor, linesFor]

theorem through_concat (queue : Nat) (ls : List Letter) (l : Letter) :
    through queue (ls ++ [l]) = through queue ls + if l.queue = queue then 1 else 0 := by
  simp [through, List.countP_append, List.countP_singleton]

theorem mem_linesFor {s : Storage} {name : String} {ls : List Letter} {text : List Char}
    (h : text ∈ linesFor s name ls) : ∃ l ∈ ls, l.line = text := by
  obtain ⟨l, hl, rfl⟩ := List.mem_map.1 h
  exact ⟨l, List.mem_filter.1 hl |>.1, rfl⟩

/-! ### One write -/

section Write
variable {q : DeadLetters} {s : Storage} (now : Timestamp) (m : Message) (fault : Fault)

theorem write_refused (h : (s.locate .appending q.path).takes = false) :
    ∃ failure, q.write now m fault s = (some failure, q, s) := by
  obtain ⟨failure, herror⟩ := Storage.append_refused h (line now m fault ++ ['\n'])
  exact ⟨failure, by rw [write, herror]⟩

theorem write_taken (h : (s.locate .appending q.path).takes = true) :
    ∃ t, q.write now m fault s = (none, {q with count := q.count + 1}, t) ∧
      ∀ name, t.text? name = if s.file? q.path = some name then
        (s.text? name).map (· ++ (line now m fault ++ ['\n'])) else s.text? name := by
  obtain ⟨t, hok, htext⟩ := Storage.append_taken h (line now m fault ++ ['\n'])
  exact ⟨t, by rw [write, hok], htext⟩

end Write

/-! ### What an office keeps -/

/-- What an office that began with the files of `s` has made of its letters. -/
structure Kept (s : Storage) (o : Office) (ls : List Letter) : Prop where
  text : ∀ name, o.storage.text? name = (s.text? name).map (· ++ Text.ended (linesFor s name ls))
  opened : ∀ q ∈ o.queues, (s.locate .appending q.path).isSomewhere = true
  count : ∀ i q, o.queues[i]? = some q →
    q.count = if (s.locate .appending q.path).takes then through i ls else 0
  /-- No letter was handed to a queue before it was opened. -/
  known : ∀ l ∈ ls, l.queue < o.queues.length
  printable : ∀ l ∈ ls, Printable l.line

namespace Kept
variable {s : Storage} {o : Office} {ls : List Letter}

theorem new (s : Storage) : Kept s (.new s) [] where
  text name := by
    rw [Office.new]
    cases s.text? name with
    | none => rfl
    | some held => exact congrArg some (List.append_nil held).symm
  opened _ h := by cases h
  count _ _ h := by cases h
  known _ h := by cases h
  printable _ h := by cases h

theorem openFile (h : Kept s o ls) (path : String) : Kept s (o.act (.openFile path)) ls := by
  rw [Office.act, DeadLetters.openFile]
  cases hopen : o.storage.openForAppend path with
  | error failure => exact h
  | ok t =>
    obtain ⟨hsomewhere, htext⟩ := Storage.openForAppend_ok hopen
    -- a queue that is new has been handed nothing
    have hnew : through o.queues.length ls = 0 := by
      rw [through, List.countP_eq_zero]
      intro l hl
      have := h.known l hl
      simp only [decide_eq_true_eq]
      omega
    exact {
      text := fun name => by rw [← h.text name]; exact congrFun htext name
      opened := by
        intro q hq
        rcases List.mem_append.1 hq with hq | hq
        · exact h.opened q hq
        · rw [List.mem_singleton.1 hq, Storage.locate_eq hsomewhere]
          exact hsomewhere
      count := by
        intro i q hq
        rcases Nat.lt_trichotomy i o.queues.length with hi | hi | hi
        · rw [List.getElem?_append_left hi] at hq
          exact h.count i q hq
        · subst hi
          rw [List.getElem?_concat_length] at hq
          cases hq
          rw [hnew, ite_self]
        · have hover : (o.queues ++ [⟨path, 0⟩])[i]? = none := by
            rw [List.getElem?_eq_none_iff, List.length_append, List.length_singleton]
            omega
          rw [hover] at hq
          cases hq
      known := fun l hl => by
        rw [List.length_append]
        exact Nat.lt_add_right _ (h.known l hl)
      printable := h.printable }

/-- One more letter, if the files and the queue have become what they should. -/
theorem handOver (h : Kept s o ls) (l : Letter) {q : DeadLetters} {t : Storage} (n : Nat)
    (hq : o.queues[l.queue]? = some q) (hprintable : Printable l.line)
    (htext : ∀ name, t.text? name = if s.file? l.path = some name then
      (o.storage.text? name).map (· ++ (l.line ++ ['\n'])) else o.storage.text? name)
    (hn : n = if (s.locate .appending q.path).takes then through l.queue ls + 1 else 0) :
    Kept s ⟨o.queues.set l.queue {q with count := n}, t⟩ (ls ++ [l]) where
  text name := by
    rw [htext, h.text, linesFor_append, Text.ended_append]
    by_cases hfile : s.file? l.path = some name
    · have hone : linesFor s name [l] = [l.line] := by simp [linesFor, hfile]
      rw [if_pos hfile, hone, Option.map_map]
      congr 1
      funext held
      simp [Text.ended]
    · have hnone : linesFor s name [l] = [] := by simp [linesFor, hfile]
      rw [if_neg hfile, hnone]
      simp [Text.ended]
  opened p hp := by
    rcases List.mem_or_eq_of_mem_set hp with hp | rfl
    · exact h.opened p hp
    · exact h.opened q (List.mem_of_getElem? hq)
  count i p hp := by
    rw [through_concat]
    by_cases hi : l.queue = i
    · subst hi
      rw [List.getElem?_set_self (List.getElem?_eq_some_iff.1 hq).1] at hp
      cases hp
      rw [if_pos rfl]
      exact hn
    · rw [List.getElem?_set_ne hi] at hp
      rw [if_neg hi]
      exact h.count i p hp
  known := by
    rw [List.length_set]
    exact List.forall_mem_append.2
      ⟨h.known, List.forall_mem_singleton.2 (List.getElem?_eq_some_iff.1 hq).1⟩
  printable := List.forall_mem_append.2 ⟨h.printable, List.forall_mem_singleton.2 hprintable⟩

theorem write (h : Kept s o ls) (queue : Nat) (now : Timestamp) (m : Message) (fault : Fault) :
    Kept s (o.act (.write queue now m fault))
      (ls ++ (o.letter? (.write queue now m fault)).toList) := by
  cases hq : o.queues[queue]? with
  | none =>
    simp only [Office.act, Office.letter?, hq, Option.map_none, Option.toList_none, List.append_nil]
    exact h
  | some q =>
    simp only [Office.act, Office.letter?, hq, Option.map_some, Option.toList_some]
    have hsomewhere := h.opened q (List.mem_of_getElem? hq)
    have hplace := Storage.locate_eq hsomewhere o.storage
    cases htakes : (s.locate .appending q.path).takes with
    | false =>
      obtain ⟨failure, hwrite⟩ := write_refused now m fault (hplace ▸ htakes)
      have hfile : ∀ name, s.file? q.path ≠ some name := fun name hfile => by
        rw [Storage.locate_of_file? hfile] at htakes
        cases htakes
      have hcount := h.count queue q hq
      rw [htakes] at hcount
      rw [hwrite]
      exact h.handOver ⟨queue, q.path, line now m fault⟩ q.count hq (printable_line now m fault)
        (fun name => (if_neg (hfile name)).symm) (by rw [hcount, htakes]; rfl)
    | true =>
      obtain ⟨t, hwrite, htext⟩ := write_taken now m fault (hplace ▸ htakes)
      have hcount := h.count queue q hq
      rw [htakes] at hcount
      rw [hwrite]
      exact h.handOver ⟨queue, q.path, line now m fault⟩ (q.count + 1) hq
        (printable_line now m fault)
        (fun name => by rw [htext name, Storage.file?_stable hsomewhere])
        (by rw [htakes, hcount]; rfl)

theorem act (h : Kept s o ls) (a : Act) : Kept s (o.act a) (ls ++ (o.letter? a).toList) := by
  cases a with
  | openFile path =>
    rw [Office.letter?, Option.toList_none, List.append_nil]
    exact h.openFile path
  | write queue now m fault => exact h.write queue now m fault

theorem run (h : Kept s o ls) (acts : List Act) : Kept s (o.run acts) (ls ++ o.letters acts) := by
  induction acts generalizing o ls with
  | nil =>
    rw [Office.letters, List.append_nil]
    exact h
  | cons a rest ih =>
    rw [Office.letters, ← List.append_assoc]
    exact ih (h.act a)

end Kept

/-- **One dead letter is one line**, whatever is opened and written, and in whatever order. The
lines of a file that was empty or ended in a newline are its old lines and one for each letter
handed to a queue on it; none has a control character in it. A file can always be opened, which
changes no text; a queue on it counts the letters that it was handed since; and one more write
succeeds, adds its line after the others and touches no other file. Where no write succeeds, a write
changes nothing and counts nothing. -/
theorem one_line_each (s : Storage) (acts : List Act) :
    let o := (Office.new s).run acts
    let ls := (Office.new s).letters acts
    (∀ name held, s.text? name = some held → Text.Complete held →
      ∃ after, o.storage.text? name = some after ∧ Text.Complete after ∧
        Text.lines after = Text.lines held ++ linesFor s name ls) ∧
    (∀ l ∈ ls, ∀ c ∈ l.line, 32 ≤ c.toNat) ∧
    (∀ path name, o.storage.file? path = some name →
      ∃ t, openFile path o.storage = .ok (⟨path, 0⟩, t) ∧ t.text? = o.storage.text?) ∧
    (∀ (i : Nat) (q : DeadLetters) (name : String),
      o.queues[i]? = some q → o.storage.file? q.path = some name →
      q.count = through i ls ∧
      ∀ now m fault, ∃ t, q.write now m fault o.storage = (none, {q with count := q.count + 1}, t) ∧
        (∀ before, o.storage.text? name = some before → Text.Complete before →
          ∃ after, t.text? name = some after ∧
            Text.lines after = Text.lines before ++ [line now m fault]) ∧
        ∀ other, other ≠ name → t.text? other = o.storage.text? other) ∧
    (∀ (i : Nat) (q : DeadLetters), o.queues[i]? = some q →
      (∀ cs, ∃ failure, o.storage.append q.path cs = .error failure) →
      q.count = 0 ∧
      ∀ now m fault, ∃ failure, q.write now m fault o.storage = (some failure, q, o.storage)) := by
  intro o ls
  have h : Kept s o ls := (Kept.new s).run acts
  refine ⟨?lines, h.printable, ?opens, ?taken, ?refused⟩
  case lines =>
    intro name held hheld hcomplete
    have hprintable : ∀ text ∈ linesFor s name ls, '\n' ∉ text := by
      intro text htext
      obtain ⟨l, hl, rfl⟩ := mem_linesFor htext
      exact (h.printable l hl).newline_notMem
    obtain ⟨hafter, hlines⟩ := Text.lines_append_ended hcomplete hprintable
    exact ⟨_, by rw [h.text, hheld]; rfl, hafter, hlines⟩
  case opens =>
    intro path name hfile
    obtain ⟨t, hopen⟩ := Storage.openForAppend_file hfile
    exact ⟨t, by rw [openFile, hopen], (Storage.openForAppend_ok hopen).2⟩
  case taken =>
    intro i q name hq hfile
    have hplace := Storage.locate_of_file? hfile
    have htakes : (o.storage.locate .appending q.path).takes = true := by rw [hplace]; rfl
    have hcount := h.count i q hq
    rw [← Storage.locate_eq (h.opened q (List.mem_of_getElem? hq)) o.storage, htakes] at hcount
    refine ⟨hcount, fun now m fault => ?_⟩
    obtain ⟨t, hwrite, htext⟩ := write_taken now m fault htakes
    refine ⟨t, hwrite, fun before hbefore hcomplete => ?_, fun other hne => ?_⟩
    · exact ⟨_, by rw [htext, if_pos hfile, hbefore]; rfl,
        Text.lines_append_line hcomplete (printable_line now m fault).newline_notMem⟩
    · rw [htext, hfile, if_neg fun he => hne (Option.some.inj he).symm]
  case refused =>
    intro i q hq hrefuses
    have htakes : (o.storage.locate .appending q.path).takes = false := by
      cases htakes : (o.storage.locate .appending q.path).takes with
      | false => rfl
      | true =>
        obtain ⟨failure, herror⟩ := hrefuses []
        obtain ⟨t, hok, -⟩ := Storage.append_taken htakes []
        rw [hok] at herror
        cases herror
    have hcount := h.count i q hq
    rw [← Storage.locate_eq (h.opened q (List.mem_of_getElem? hq)) o.storage, htakes] at hcount
    exact ⟨hcount, fun now m fault => write_refused now m fault htakes⟩

/-- Two queues on one file that has a line already and a third on a full device; an id and a key
would each begin a line if they were written as they are. -/
theorem one_line_each_shared :
    let s : Storage := ⟨Bag.empty.put "letters" (.text ['a', '\n'])⟩
    let now := Timestamp.ofMillis 0
    let m := Message.ofAction "m\n1" "op" now
    let fault := Fault.emptyGroup "\n\x7b\x7d\""
    let acts : List Act :=
      [.openFile "letters", .openFile "/dev/full", .write 0 now m fault, .openFile "./letters",
       .write 1 now m fault, .write 2 now m (.malformedSequence "\u0000"), .write 0 now m fault]
    let o := (Office.new s).run acts
    (∃ after, o.storage.text? "letters" = some after ∧ Text.lines after =
      [['a'], line now m fault, line now m (.malformedSequence "\u0000"), line now m fault]) ∧
    (∃ q, o.queues[0]? = some q ∧ q.count = 2) ∧
    (∃ q, o.queues[1]? = some q ∧ q.count = 0 ∧
      ∃ failure, q.write now m fault o.storage = (some failure, q, o.storage)) := by
  intro s now m fault acts o
  obtain ⟨hlines, -, -, htaken, hrefused⟩ := one_line_each s acts
  subst o acts fault m now s
  refine ⟨?lines, ?counted, ?refused⟩
  case lines =>
    obtain ⟨after, hafter, -, hadded⟩ := hlines "letters" ['a', '\n'] rfl (.inr ⟨['a'], rfl⟩)
    exact ⟨after, hafter, hadded⟩
  case counted => exact ⟨_, rfl, (htaken 0 ⟨"letters", 2⟩ "letters" rfl rfl).1⟩
  case refused =>
    obtain ⟨hcount, hwrite⟩ := hrefused 1 ⟨"/dev/full", 0⟩ rfl fun cs => ⟨.noSpace, rfl⟩
    exact ⟨_, rfl, hcount, hwrite _ _ _⟩

end Aggregation.DeadLetters
