import FatVolume.Proofs.AsciiText
import FatVolume.Proofs.ShellOperations

/-!
# Typed content

The lines after a `write` command are the content to be written, up to a line that holds a single
dot, and are not commands.  `ContentConsumed operands input` says so of a command with the given
operands that is followed by the given input.  Whether the operands are good does not matter to
it, nor what the command does; but a line that is not UTF-8 ends the content too early, and the
lines after it are read as commands, the marker among them.
-/

namespace FatVolume

namespace Shell

open SessionM

/-- What is left of a list without the elements dropped at its end is a single element exactly when
all others are dropped. -/
theorem rdropWhile_eq_singleton_iff {α : Type} {p : α → Bool} {a : α} (ha : ¬p a)
    (list : List α) :
  list.rdropWhile p = [a] ↔ ∃ dropped, list = a :: dropped ∧ ∀ b ∈ dropped, p b
  := by
  constructor
  · intro left
    refine ⟨list.rtakeWhile p, ?_, fun b hb => List.mem_rtakeWhile_imp hb⟩
    conv_lhs => rw [← List.rdropWhile_append_rtakeWhile (p := p) (l := list), left]
    rfl
  · rintro ⟨dropped, rfl, all⟩
    induction dropped using List.reverseRecOn with
    | nil => rw [List.rdropWhile_singleton, if_neg ha]
    | append_singleton dropped b ih =>
        rw [← List.cons_append, List.rdropWhile_concat_pos _ _ _ (all b (by simp))]
        exact ih fun c hc => all c (by simp [hc])

/-! ### Markers -/

/-- Whether a byte belongs to the end of a line. -/
def endsLine (b : UInt8) : Bool :=
  b == 0x0D || b == lineFeed

/-- Whether a line holds a single dot, its end aside. -/
def isMarker (line : Line) : Bool :=
  line.rdropWhile endsLine == [0x2E]

/-- The lines before the first marker. -/
def typed (lines : List Line) : List Line :=
  lines.takeWhile fun line => !isMarker line

/-- The lines after the first marker. -/
def afterMarker (lines : List Line) : List Line :=
  (lines.dropWhile fun line => !isMarker line).tail

/-- The lines up to the first marker, this included. -/
def throughMarker (lines : List Line) : List Line :=
  typed lines ++ (lines.dropWhile fun line => !isMarker line).take 1

/-- The texts that end a content are a dot with line ends after it. -/
def IsEnding (text : List Char) : Prop :=
  ∃ ends : List Char, text = '.' :: ends ∧ ∀ c ∈ ends, c = '\r' ∨ c = '\n'

theorem endsContent_iff (text : List Char) :
  endsContent (String.ofList text) = true ↔ IsEnding text
  := by
  have dropped : endsContent (String.ofList text)
      = (text.rdropWhile (fun c => c == '\r' || c == '\n') == ['.']) := by
    rw [endsContent, String.toList_ofList]
    rfl
  rw [dropped, beq_iff_eq, rdropWhile_eq_singleton_iff (by decide)]
  simp [IsEnding]

theorem IsEnding.isAscii {text : List Char} (h : IsEnding text) :
  Utf8.IsAscii text
  := by
  obtain ⟨ends, rfl, all⟩ := h
  intro c hc
  rcases List.mem_cons.mp hc with rfl | hc
  · decide
  · rcases all c hc with rfl | rfl <;> decide

/-- The markers are the encodings of these texts. -/
theorem isMarker_iff (line : Line) :
  isMarker line = true ↔ ∃ text, IsEnding text ∧ line = Utf8.encode (String.ofList text)
  := by
  rw [isMarker, beq_iff_eq, rdropWhile_eq_singleton_iff (by decide)]
  constructor
  · rintro ⟨ends, rfl, all⟩
    have each (b : UInt8) (hb : b ∈ ends) : b = 0x0D ∨ b = 0x0A := by
      simpa [endsLine, lineFeed] using all b hb
    have ending : IsEnding ('.' :: ends.map fun b => Char.ofNat b.toNat) := by
      refine ⟨_, rfl, ?_⟩
      intro c hc
      obtain ⟨b, hb, rfl⟩ := List.mem_map.mp hc
      rcases each b hb with rfl | rfl <;> decide
    refine ⟨_, ending, ?_⟩
    rw [Utf8.encode_of_isAscii ending.isAscii, List.map_cons, List.map_map, List.cons.injEq]
    refine ⟨rfl, (List.map_id ends).symm.trans (List.map_congr_left ?_)⟩
    intro b hb
    rcases each b hb with rfl | rfl <;> rfl
  · rintro ⟨text, ending, rfl⟩
    rw [Utf8.encode_of_isAscii ending.isAscii]
    obtain ⟨ends, rfl, all⟩ := ending
    refine ⟨_, List.map_cons, ?_⟩
    intro b hb
    obtain ⟨c, hc, rfl⟩ := List.mem_map.mp hb
    rcases all c hc with rfl | rfl <;> decide

/-- A line that is UTF-8 ends the content if it is a marker. -/
theorem endsContent_eq_isMarker {line : Line} {text : String}
    (h : Utf8.decode? line = some text) :
  endsContent text = isMarker line
  := by
  rw [Bool.eq_iff_iff, isMarker_iff]
  constructor
  · intro ends
    rw [← String.ofList_toList (s := text), endsContent_iff] at ends
    refine ⟨_, ends, ?_⟩
    rw [← Utf8.decodeLossy_eq_iff ends.isAscii, String.ofList_toList]
    exact Utf8.decodeLossy_of_decode? h
  · rintro ⟨ending, hending, rfl⟩
    rw [Utf8.decode?_encode_of_isAscii hending.isAscii] at h
    rw [← Option.some.inj h, endsContent_iff]
    exact hending

/-- A marker is UTF-8. -/
theorem isSome_decode?_of_isMarker {line : Line} (h : isMarker line = true) :
  (Utf8.decode? line).isSome
  := by
  obtain ⟨ending, hending, rfl⟩ := (isMarker_iff line).mp h
  rw [Utf8.decode?_encode_of_isAscii hending.isAscii]
  rfl

section Lines

variable {line : Line} {lines : List Line}

theorem typed_cons_of_isMarker (h : isMarker line = true) :
  typed (line :: lines) = []
  := by
  simp [typed, h]

theorem typed_cons (h : isMarker line = false) :
  typed (line :: lines) = line :: typed lines
  := by
  simp [typed, h]

theorem afterMarker_cons_of_isMarker (h : isMarker line = true) :
  afterMarker (line :: lines) = lines
  := by
  simp [afterMarker, h]

theorem afterMarker_cons (h : isMarker line = false) :
  afterMarker (line :: lines) = afterMarker lines
  := by
  simp [afterMarker, h]

theorem throughMarker_cons_of_isMarker (h : isMarker line = true) :
  throughMarker (line :: lines) = [line]
  := by
  simp [throughMarker, typed, h]

theorem throughMarker_cons (h : isMarker line = false) :
  throughMarker (line :: lines) = line :: throughMarker lines
  := by
  simp [throughMarker, typed, h]

/-- The lines are those up to the first marker and those after it. -/
theorem throughMarker_append_afterMarker (lines : List Line) :
  throughMarker lines ++ afterMarker lines = lines
  := by
  induction lines with
  | nil => rfl
  | cons line rest ih =>
      cases h : isMarker line with
      | true => rw [throughMarker_cons_of_isMarker h, afterMarker_cons_of_isMarker h]; rfl
      | false => rw [throughMarker_cons h, afterMarker_cons h, List.cons_append, ih]

end Lines

/-! ### Taking the content -/

/-- Content that is taken is what was typed before the marker, and the lines after the marker are
left. -/
theorem takeContentFrom_eq_ok {taken rest : List Line} {content : Bytes} {lines : List Line}
    (h : takeContentFrom taken lines = (.ok content, rest)) :
  content = taken.reverse.flatten ++ (typed lines).flatten ∧ rest = afterMarker lines
  := by
  induction lines generalizing taken with
  | nil =>
      cases h
      simp [typed, afterMarker]
  | cons line lines ih =>
      rw [takeContentFrom] at h
      split at h
      · cases h
      · next text decoded =>
          rw [endsContent_eq_isMarker decoded] at h
          split at h
          · next marker =>
              cases h
              simp [typed_cons_of_isMarker marker, afterMarker_cons_of_isMarker marker]
          · next other =>
              have other : isMarker line = false := by simpa using other
              obtain ⟨hcontent, hrest⟩ := ih h
              refine ⟨?_, by rw [hrest, afterMarker_cons other]⟩
              rw [hcontent, typed_cons other]
              simp

/-- The lines after the marker are those that are left exactly if all lines taken are UTF-8 but,
possibly, the last. -/
theorem takeContentFrom_snd_iff (taken lines : List Line) :
  (takeContentFrom taken lines).2 = afterMarker lines
    ↔ ∀ line ∈ (throughMarker lines).dropLast, (Utf8.decode? line).isSome
  := by
  induction lines generalizing taken with
  | nil => simp [takeContentFrom, throughMarker, typed, afterMarker]
  | cons line lines ih =>
      cases marker : isMarker line with
      | true =>
          obtain ⟨text, decoded⟩ := Option.isSome_iff_exists.mp (isSome_decode?_of_isMarker marker)
          simp [takeContentFrom, decoded, endsContent_eq_isMarker decoded, marker,
            throughMarker_cons_of_isMarker marker, afterMarker_cons_of_isMarker marker]
      | false =>
          have parts := throughMarker_append_afterMarker lines
          rw [takeContentFrom, throughMarker_cons marker, afterMarker_cons marker]
          -- Nothing more is taken only at the end of the input.
          by_cases last : throughMarker lines = []
          · rw [last, List.nil_append] at parts
            cases decoded : Utf8.decode? line with
            | some text =>
                dsimp only
                rw [endsContent_eq_isMarker decoded, marker, if_neg (by simp), ih, last]
                simp
            | none => simp [last, parts]
          · rw [List.dropLast_cons_of_ne_nil last, List.forall_mem_cons]
            cases decoded : Utf8.decode? line with
            | some text =>
                dsimp only
                rw [endsContent_eq_isMarker decoded, marker, if_neg (by simp), ih]
                simp
            | none =>
                have longer : lines ≠ afterMarker lines := by
                  intro same
                  have lengths := congrArg List.length parts
                  rw [List.length_append, ← same] at lengths
                  have := List.length_pos_of_ne_nil last
                  omega
                simp [longer]

/-! ### The command -/

/-- What a `write` command with the given operands does with a content, failing as it may. -/
def writing (operands : List String) (content : Except Error Bytes) : SessionM Unit := do
  let content ← SessionM.ofExcept content
  let command ← SessionM.ofExcept (Command.parse "write" operands)
  perform content command

/-- The input after a `write` command was consumed as its content. -/
structure ContentConsumed (operands : List String) (input : Bytes) : Prop where
  /-- The lines through the marker belong to the turn of the command, the others do not. -/
  consumed : (Turn.ofTokens ("write" :: operands) (lines input)).2 = afterMarker (lines input)
  /-- What follows the command line in a script is what follows the marker. -/
  script : ∀ line text, Utf8.decode? line = some text → Text.words text = "write" :: operands →
    Script.ofLines (line :: lines input)
      = .turn (Turn.ofTokens ("write" :: operands) (lines input)).1
          (Script.ofLines (afterMarker (lines input)))
  /-- The turn does what the command does, and the script goes on even if that fails. -/
  reported : (liftM (execute (Turn.ofTokens ("write" :: operands) (lines input)).1) : SessionM Flow)
    = do
      tryCatch (writing operands (takeContent (lines input)).1) fun failure =>
        report "write" failure
      return .next
  /-- When the command succeeds, the bytes before the marker were written. -/
  written : ∀ {σ : Type} (serve : Surroundings σ) (session session' : Session) (s s' : σ),
    (writing operands (takeContent (lines input)).1).runIn serve session s = (.ok (), session', s') →
    ∃ handle mode count middle t t',
      (Session.write handle (typed (lines input)).flatten mode).runIn serve middle t
          = (.ok count, session', t')
        ∧ (printLine s!"{count} bytes written").runIn serve t' = (.ok (), s')

section Command

variable {operands : List String} {command : Command} {content : Bytes} {failure : Error}

/-- Operands of `write` that are good make a command of it. -/
theorem eq_write_of_parse (h : Command.parse "write" operands = .ok command) :
  ∃ mode path position, command = .write mode path position
  := by
  change Command.parseWrite operands = .ok command at h
  rw [Command.parseWrite] at h
  dsimp only at h
  split at h
  · cases h
    exact ⟨_, _, _, rfl⟩
  · next path position _ =>
      split_ifs at h
      · cases hnumber : Command.parseNumber position with
        | error e =>
            rw [hnumber] at h
            cases h
        | ok number =>
            rw [hnumber] at h
            cases h
            exact ⟨_, _, _, rfl⟩
      · cases h
  · cases h

theorem writing_of_parse_ok (h : Command.parse "write" operands = .ok command) :
  writing operands (.ok content) = perform content command
  := by
  rw [writing, h]
  rfl

theorem writing_of_parse_error (h : Command.parse "write" operands = .error failure) :
  writing operands (.ok content) = throw failure
  := by
  rw [writing, h]
  rfl

/-- The turn of a `write` command does what the command does and reports its failure. -/
theorem execute_write (operands : List String) (content : Except Error Bytes) :
  (liftM (execute ⟨"write" :: operands, content⟩) : SessionM Flow) = do
    tryCatch (writing operands content) fun failure => report "write" failure
    return .next
  := by
  have reported := lift_reported (writing operands content) (report "write") .next
  cases content with
  | error failure => exact reported
  | ok content =>
      cases hparse : Command.parse "write" operands with
      | error failure =>
          rw [writing_of_parse_error hparse] at reported ⊢
          simp only [execute, hparse]
          exact reported
      | ok command =>
          obtain ⟨mode, path, position, rfl⟩ := eq_write_of_parse hparse
          rw [writing_of_parse_ok hparse] at reported ⊢
          simp only [execute, hparse]
          exact reported

/-- A `write` command that succeeds writes its content, and then says how much that was. -/
theorem exists_write_of_writing {result : Except Error Bytes} {σ : Type} {serve : Surroundings σ}
    {session session' : Session} {s s' : σ}
    (h : (writing operands result).runIn serve session s = (.ok (), session', s')) :
  ∃ content, result = .ok content
    ∧ ∃ handle mode count middle t t',
      (Session.write handle content mode).runIn serve middle t = (.ok count, session', t')
        ∧ (printLine s!"{count} bytes written").runIn serve t' = (.ok (), s')
  := by
  obtain ⟨content, _, _, hcontent, h⟩ := runIn_bind_eq_ok.mp h
  obtain ⟨command, _, _, hcommand, h⟩ := runIn_bind_eq_ok.mp h
  rw [runIn_ofExcept, Prod.mk.injEq] at hcontent hcommand
  obtain ⟨mode, path, position, rfl⟩ := eq_write_of_parse hcommand.1
  refine ⟨content, hcontent.1, ?_⟩
  obtain ⟨handle, _, _, -, h⟩ := runIn_bind_eq_ok.mp h
  obtain ⟨file, _, _, -, h⟩ := runIn_bind_eq_ok.mp h
  -- Wherever the cursor was moved before, writing and printing come last.
  have final {middle : Session} {t : σ} (h : (do
      let written ← Session.write handle content mode
      printLine s!"{written} bytes written" : SessionM Unit).runIn serve middle t
        = (.ok (), session', s')) :
      ∃ handle mode count middle t t',
        (Session.write handle content mode).runIn serve middle t = (.ok count, session', t')
          ∧ (printLine s!"{count} bytes written").runIn serve t' = (.ok (), s') := by
    obtain ⟨count, _, t', wrote, printed⟩ := runIn_bind_eq_ok.mp h
    rw [runIn_lift, Prod.mk.injEq, Prod.mk.injEq] at printed
    obtain ⟨printed, rfl, after⟩ := printed
    exact ⟨handle, mode, count, middle, t, t', wrote, Prod.ext printed after⟩
  dsimp only at h
  split at h
  · obtain ⟨_, _, _, thrown, -⟩ := runIn_bind_eq_ok.mp h
    cases thrown
  · cases position with
    | none => exact final h
    | some position =>
        obtain ⟨_, _, _, -, h⟩ := runIn_bind_eq_ok.mp h
        exact final h

end Command

/-- The input after a `write` command is consumed as its content exactly if all lines through the
marker are UTF-8, but for the last line of an input without a marker. -/
theorem contentConsumed_iff (operands : List String) (input : Bytes) :
  ContentConsumed operands input
    ↔ ∀ line ∈ (throughMarker (lines input)).dropLast, (Utf8.decode? line).isSome
  := by
  have turn : Turn.ofTokens ("write" :: operands) (lines input)
      = (⟨"write" :: operands, (takeContent (lines input)).1⟩, (takeContent (lines input)).2) := rfl
  rw [← takeContentFrom_snd_iff []]
  constructor
  · intro h
    exact h.consumed
  · intro consumed
    refine ⟨consumed, ?_, ?_, ?_⟩
    · intro line text decoded words
      rw [Script.ofLines, decoded]
      dsimp only
      rw [words]
      exact congrArg _ (congrArg Script.ofLines consumed)
    · exact execute_write operands _
    · intro σ serve session session' s s' succeeded
      obtain ⟨content, taken, written⟩ := exists_write_of_writing succeeded
      have whole := (takeContentFrom_eq_ok (Prod.ext taken rfl)).1
      rw [List.reverse_nil, List.flatten_nil, List.nil_append] at whole
      rwa [whole] at written

/-- The second of these lines is not typed content any more: the first one is not UTF-8. -/
theorem not_contentConsumed_malformed :
  ¬ContentConsumed ["nowhere"] ([0xFF, lineFeed] ++ Utf8.encode "rm keep\n.\n")
  := by
  intro h
  have left := h.consumed
  revert left
  decide

end Shell

end FatVolume
