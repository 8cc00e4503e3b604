import Retransmission.Event

namespace Retransmission

/-- A change that a line tells of, with the numbers in the line. -/
inductive Notice where
  | slid (shift : Nat)
  | restarted (first next : Nat)
  | resized (old new : Nat)
deriving DecidableEq, Repr

namespace Notice

/-- The words of a line, which blanks separate. -/
def words (line : String) : List String := (line.toList.splitOn ' ').map String.ofList

/-- The number that a word spells in decimal digits. -/
def decimal? (word : String) : Option Nat :=
  if word.toList.all Char.isDigit then some (Nat.ofDigitChars 10 word.toList 0) else none

/-- The change that a line tells of, if it tells of one. -/
def read? (line : String) : Option Notice :=
  match words line with
  | ["arrival", "window", "slide", "by", shift, "to", "seqno", _] => do
    return .slid (← decimal? shift)
  | ["arrival", "window", "reset:", "first", first, "->", next] => do
    return .restarted (← decimal? first) (← decimal? next)
  | ["packet", "cache", "resized", old, "->", new] => do
    return .resized (← decimal? old) (← decimal? new)
  | _ => none

private theorem words_cons {word : String} (whole : ' ' ∉ word.toList) (rest : String) :
    words (word ++ (" " ++ rest)) = word :: words rest := by
  have blank : " ".toList = [' '] := rfl
  rw [words, String.toList_append, String.toList_append, blank, List.singleton_append,
    List.splitOn_append_cons_self_of_not_mem whole, List.map_cons, String.ofList_toList, words]

private theorem words_of_whole {word : String} (whole : ' ' ∉ word.toList) :
    words word = [word] := by
  rw [words, List.splitOn_eq_singleton whole, List.map_singleton, String.ofList_toList]

private theorem isDigit_of_mem_repr {number : Nat} {char : Char}
    (member : char ∈ number.repr.toList) : char.isDigit = true := by
  rw [Nat.repr_eq_ofList_toDigits, String.toList_ofList] at member
  exact Nat.isDigit_of_mem_toDigits (by decide) (by decide) member

private theorem blank_notMem_repr (number : Nat) : ' ' ∉ number.repr.toList := by
  intro member
  exact absurd (isDigit_of_mem_repr member) (by decide)

theorem decimal?_repr (number : Nat) : decimal? number.repr = some number := by
  have digits : number.repr.toList.all Char.isDigit = true :=
    List.all_eq_true.mpr fun _ => isDigit_of_mem_repr
  rw [decimal?, if_pos digits, Nat.repr_eq_ofList_toDigits, String.toList_ofList,
    Nat.ofDigitChars_ten_toDigits]

/-- Words with a blank after each. -/
private def phrase (parts : List String) : String :=
  parts.foldr (fun word rest => word ++ (" " ++ rest)) ""

private theorem words_phrase {parts : List String} (whole : ∀ part ∈ parts, ' ' ∉ part.toList)
    (rest : String) : words (phrase parts ++ rest) = parts ++ words rest := by
  induction parts with
  | nil => rw [phrase, List.foldr_nil, String.empty_append, List.nil_append]
  | cons word others ih =>
    obtain ⟨first, later⟩ := List.forall_mem_cons.mp whole
    rw [phrase, List.foldr_cons, String.append_assoc, String.append_assoc, words_cons first]
    exact congrArg (word :: ·) (ih later)

/-- Each kind of line that tells of a change has two numbers in it, the second at its end. -/
private theorem words_line {start middle : List String}
    (whole : ∀ part ∈ start, ' ' ∉ part.toList) (within : ∀ part ∈ middle, ' ' ∉ part.toList)
    (number other : Nat) :
    words (phrase start ++ number.repr ++ (" " ++ phrase middle) ++ other.repr) =
      start ++ number.repr :: (middle ++ [other.repr]) := by
  rw [String.append_assoc, String.append_assoc, String.append_assoc, words_phrase whole,
    words_cons (blank_notMem_repr number), words_phrase within,
    words_of_whole (blank_notMem_repr other)]

end Notice

/-- The change behind a record, if it is one of the three kinds. -/
def Event.notice? : Event → Option Notice
  | .windowSlid shift _ => some (.slid shift.toNat)
  | .windowRestarted first next => some (.restarted first.word.toNat next.word.toNat)
  | .resized old new => some (.resized old new)
  | .streamRestarted .. | .resizeIgnored _ | .indicesInvalidated .. => none

/-- Every record is read for what it is. Those of the other kinds are known by their first
words, whatever follows. -/
theorem Notice.read?_message (event : Event) : read? event.message = event.notice? := by
  cases event with
  | windowSlid shift next =>
    have text : (Event.windowSlid shift next).message =
        phrase ["arrival", "window", "slide", "by"] ++ shift.toNat.repr ++
          (" " ++ phrase ["to", "seqno"]) ++ next.word.toNat.repr := rfl
    rw [read?, text, words_line (by decide) (by decide)]
    change (decimal? shift.toNat.repr).bind _ = _
    rw [decimal?_repr]
    rfl
  | windowRestarted first next =>
    have text : (Event.windowRestarted first next).message =
        phrase ["arrival", "window", "reset:", "first"] ++ first.word.toNat.repr ++
          (" " ++ phrase ["->"]) ++ next.word.toNat.repr := rfl
    rw [read?, text, words_line (by decide) (by decide)]
    change (decimal? first.word.toNat.repr).bind
      (fun _ => (decimal? next.word.toNat.repr).bind _) = _
    rw [decimal?_repr, decimal?_repr]
    rfl
  | resized old new =>
    have text : (Event.resized old new).message =
        phrase ["packet", "cache", "resized"] ++ old.repr ++ (" " ++ phrase ["->"]) ++
          new.repr := rfl
    rw [read?, text, words_line (by decide) (by decide)]
    change (decimal? old.repr).bind (fun _ => (decimal? new.repr).bind _) = _
    rw [decimal?_repr, decimal?_repr]
    rfl
  | streamRestarted highest next =>
    have text : (Event.streamRestarted highest next).message =
        phrase ["sequence"] ++ "discontinuity: " ++ toString highest ++ " -> " ++ toString next ++
          ", re-anchoring" := rfl
    rw [read?, text, String.append_assoc, String.append_assoc, String.append_assoc,
      String.append_assoc, words_phrase (by decide)]
    rfl
  | resizeIgnored cause =>
    have text : (Event.resizeIgnored cause).message =
        phrase ["packet", "cache", "resize"] ++ "ignored: " ++ cause.message := rfl
    rw [read?, text, String.append_assoc, words_phrase (by decide)]
    rfl
  | indicesInvalidated old new tail =>
    have text : (Event.indicesInvalidated old new tail).message =
        phrase ["packet", "cache", "shrink"] ++ toString old ++ " -> " ++ toString new ++
          " below tail " ++ toString tail ++ ", slot indices invalidated" := rfl
    rw [read?, text, String.append_assoc, String.append_assoc, String.append_assoc,
      String.append_assoc, String.append_assoc, words_phrase (by decide)]
    rfl

end Retransmission
