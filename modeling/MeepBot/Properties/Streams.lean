import Mathlib.Data.List.Chain
import MeepBot.Session

/-!
# Streams

`MainLoop` keeps nothing of a read for the next one, so it matters where the stream was cut.

* `cut_independent`: cuts at line ends hand the lines of the stream over, whichever they are;
  all cuts agree if and only if no part of the stream that fits one read is a packet.
-/

namespace MeepBot
namespace Properties

open PacketUtil

/-! ### Cuts -/

/-- A way of cutting a stream into `recv` results that leave room for the terminator. -/
structure Cuts (s : Str) (chunks : List Str) : Prop where
  whole : chunks.flatten = s
  chunk : ∀ d ∈ chunks, d ≠ [] ∧ d.length < bufferSize

/-- Every cut is right behind or right before a newline. -/
def Aligned (chunks : List Str) : Prop :=
  chunks.IsChain fun u v => (∃ u', u = u' ++ ['\n']) ∨ ∃ v', v = '\n' :: v'

/-- The packets handed to the switch when the chunks are read one by one. -/
def handed [Platform] (c : Client) (chunks : List Str) : List ChatPacket :=
  (c.mainLoop (chunks.map .data)).1

/-- The well-formed lines of a stream. -/
def linePackets [Platform] (s : Str) : List ChatPacket :=
  (pieces '\n' s).filterMap ChatPacket.fromString

/-- The packets found in a buffer. -/
def framePackets [Platform] (d : Str) : List ChatPacket :=
  (frames d).filterMap ChatPacket.fromString

/-- No packet, in order, leaves the bot logged out. -/
def Stays [Platform] (packets : List ChatPacket) (b : Bot) : Prop :=
  Run.Along Bot.dispatch
    (fun b p => (b.dispatch p).loggedIn = true ∧ (b.dispatch p).halted = false) packets b

/-- No part of the stream that fits one read is a packet: no stretch of a line has six
fields, and no end of a line has five fields and a delimiter behind them. -/
structure Quiet (s : Str) : Prop where
  six : ∀ w, w <:+: s → '\n' ∉ w → w.length < bufferSize → (pieces delim w).length ≠ 6
  five : ∀ u, u ++ [delim, '\n'] <:+: s → '\n' ∉ u → u.length + 2 < bufferSize →
    (pieces delim u).length ≠ 5

/-! ### One chunk -/

variable [Platform]

/-- While the bot stays, all packets of a batch are handed over. -/
theorem handleAll_of_stays (datas : List Str) (clean : ∀ d ∈ datas, '\x00' ∉ d) (b : Bot)
    (running : b.halted = false) (stays : Stays (datas.filterMap ChatPacket.fromString) b) :
    b.handleAll datas = (datas.filterMap ChatPacket.fromString,
      Run.run Bot.dispatch (datas.filterMap ChatPacket.fromString) b) := by
  -- a string that is no packet leaves the bot as it is and hands nothing over
  induction datas generalizing b with
  | nil => rfl
  | cons data datas ih =>
    have same : cstr data = data := cstr_eq_self _ (clean data (by simp))
    have later := fun b => ih (fun d h => clean d (by simp [h])) b
    rw [Bot.handleAll_cons (by simp [running]), same]
    cases parsed : ChatPacket.fromString data with
    | none =>
      rw [List.filterMap_cons_none parsed] at stays ⊢
      rw [Bot.handlePacket_rejected b (by rw [same, parsed]), later b running stays]
      rfl
    | some p =>
      rw [List.filterMap_cons_some parsed] at stays ⊢
      rw [Bot.handlePacket_accepted b (by rw [same, parsed]),
        later _ stays.1.2 stays.2]
      rfl

/-- A batch hands no packet over exactly when it has none. -/
theorem handleAll_nil_iff (datas : List Str) (clean : ∀ d ∈ datas, '\x00' ∉ d) (b : Bot)
    (running : b.halted = false) :
    (b.handleAll datas).1 = [] ↔ datas.filterMap ChatPacket.fromString = [] := by
  constructor
  · intro none
    induction datas generalizing b with
    | nil => rfl
    | cons data datas ih =>
      have same : cstr data = data := cstr_eq_self _ (clean data (by simp))
      rw [Bot.handleAll_cons (by simp [running]), same, List.append_eq_nil_iff] at none
      have parsed : ChatPacket.fromString data = Option.none := by
        simpa using none.1
      rw [Bot.handlePacket_rejected b (by rw [same, parsed])] at none
      rw [List.filterMap_cons_none parsed]
      exact ih (fun d h => clean d (by simp [h])) b running none.2
  · intro none
    rw [handleAll_of_stays datas clean b running (by rw [none]; trivial), none]

/-- A chunk goes through the framer whole, and the other chunks follow. -/
theorem mainLoop_chunk (c : Client) (loggedIn : c.loggedIn = true) (running : c.halted = false)
    {d : Str} (chunk : d ≠ [] ∧ d.length < bufferSize) (clean : '\x00' ∉ d) :
    ∃ buffer, ∀ reads, c.mainLoop (.data d :: reads) =
      ((c.handleAll (frames d)).1 ++
        (Client.mainLoop reads ⟨(c.handleAll (frames d)).2, buffer⟩).1,
        (Client.mainLoop reads ⟨(c.handleAll (frames d)).2, buffer⟩).2) := by
  obtain ⟨buffer, text, read⟩ := c.read_data chunk.1 clean
  rw [List.take_of_length_le chunk.2.le] at text read
  have positive : ¬(c.read (.data d)).1 ≤ 0 := by
    rw [read]
    have := List.length_pos_of_ne_nil chunk.1
    simp only
    omega
  refine ⟨buffer, fun reads => ?_⟩
  rw [Client.mainLoop_of_data loggedIn (by simp [running]) positive rfl, read, text]

omit [Platform] in
theorem clean_frames {d : Str} (clean : '\x00' ∉ d) : ∀ f ∈ frames d, '\x00' ∉ f :=
  fun _ member zero => clean ((isInfix_of_mem_frames member).subset zero)

/-! ### All chunks -/

/-- While the bot stays, the packets of every chunk are handed over. -/
theorem handed_of_stays (chunks : List Str)
    (chunk : ∀ d ∈ chunks, d ≠ [] ∧ d.length < bufferSize) (clean : ∀ d ∈ chunks, '\x00' ∉ d)
    (c : Client) (loggedIn : c.loggedIn = true) (running : c.halted = false)
    (stays : Stays (chunks.flatMap framePackets) c.toBot) :
    handed c chunks = chunks.flatMap framePackets := by
  induction chunks generalizing c with
  | nil => rfl
  | cons d chunks ih =>
    have first := clean d (by simp)
    obtain ⟨buffer, loops⟩ := mainLoop_chunk c loggedIn running (chunk d (by simp)) first
    rw [List.flatMap_cons, Stays, Run.along_append] at stays
    have handled := handleAll_of_stays (frames d) (clean_frames first) c.toBot running stays.1
    -- the loop goes on, so that the next chunk is read
    have awake := Run.invariant Bot.dispatch (fun b => b.loggedIn = true ∧ b.halted = false) _
      (fun _ _ _ kept => kept) _ c.toBot ⟨loggedIn, running⟩ stays.1
    have later := ih (fun d h => chunk d (by simp [h])) (fun d h => clean d (by simp [h]))
      ⟨Run.run Bot.dispatch (framePackets d) c.toBot, buffer⟩ awake.1 awake.2 stays.2
    rw [handed, List.map_cons, loops, handled, List.flatMap_cons]
    exact congrArg _ later

/-- Nothing is handed over exactly when no chunk has a packet. -/
theorem handed_nil_iff (chunks : List Str)
    (chunk : ∀ d ∈ chunks, d ≠ [] ∧ d.length < bufferSize) (clean : ∀ d ∈ chunks, '\x00' ∉ d)
    (c : Client) (loggedIn : c.loggedIn = true) (running : c.halted = false) :
    handed c chunks = [] ↔ ∀ d ∈ chunks, framePackets d = [] := by
  constructor
  · intro nothing
    induction chunks generalizing c with
    | nil => simp
    | cons d chunks ih =>
      have first := clean d (by simp)
      obtain ⟨buffer, loops⟩ := mainLoop_chunk c loggedIn running (chunk d (by simp)) first
      rw [handed, List.map_cons, loops, List.append_eq_nil_iff] at nothing
      have none := (handleAll_nil_iff (frames d) (clean_frames first) c.toBot running).mp nothing.1
      -- without packets the bot stays as it is, whatever it would do with one
      have same : (c.handleAll (frames d)).2 = c.toBot := by
        rw [handleAll_of_stays (frames d) (clean_frames first) c.toBot running
          (by rw [none]; trivial), none]
        rfl
      have later := ih (fun d h => chunk d (by simp [h])) (fun d h => clean d (by simp [h]))
        ⟨(c.handleAll (frames d)).2, buffer⟩ (by rw [same]; exact loggedIn)
        (by rw [same]; exact running) nothing.2
      intro d' member
      rcases List.mem_cons.mp member with rfl | among
      · exact none
      · exact later d' among
  · intro none
    have empty : chunks.flatMap framePackets = [] := List.flatMap_eq_nil_iff.mpr none
    rw [handed_of_stays chunks chunk clean c loggedIn running (by rw [empty]; trivial), empty]

/-! ### Cuts at line ends -/

omit [Platform] in
theorem pieces_of_aligned (chunks : List Str) (nonempty : ∀ d ∈ chunks, d ≠ [])
    (aligned : Aligned chunks) :
    pieces '\n' chunks.flatten = chunks.flatMap (pieces '\n') := by
  induction chunks with
  | nil => rfl
  | cons d chunks ih =>
    rw [List.flatten_cons, List.flatMap_cons,
      ← ih (fun d h => nonempty d (by simp [h])) (List.IsChain.tail aligned)]
    rcases chunks with _ | ⟨e, chunks⟩
    · simp
    · apply Pieces.append_of_boundary
      rcases List.IsChain.rel aligned with ⟨u, rfl⟩ | ⟨v, rfl⟩
      · exact .inl ⟨u, rfl⟩
      · exact .inr ⟨v ++ chunks.flatten, by simp⟩

theorem framePackets_of_closed (d : Str) (closed : ∀ l ∈ pieces '\n' d, ¬Dangling l) :
    framePackets d = linePackets d := by
  apply receive_eq_pieces
  rintro l rfl free dangling
  refine closed l ?_ dangling
  have nonempty : l ≠ [] := by
    obtain ⟨⟨u, rfl⟩, -⟩ := dangling
    simp
  rw [Pieces.append_self, Pieces.of_not_mem '\n' l free nonempty]
  exact List.mem_singleton_self l

/-- The chunks between line ends have the packets of the lines. -/
theorem framePackets_of_aligned {s : Str} {chunks : List Str} (cuts : Cuts s chunks)
    (aligned : Aligned chunks) (closed : ∀ l ∈ pieces '\n' s, ¬Dangling l) :
    chunks.flatMap framePackets = linePackets s := by
  have split := pieces_of_aligned chunks (fun d h => (cuts.chunk d h).1) aligned
  rw [cuts.whole] at split
  rw [linePackets, split, List.filterMap_flatMap]
  apply List.flatMap_congr
  intro d member
  refine framePackets_of_closed d fun l line => closed l ?_
  rw [split]
  exact List.mem_flatMap.mpr ⟨d, member, line⟩

/-! ### All cuts -/

theorem framePackets_nil_iff {d : Str} :
    framePackets d = [] ↔ ∀ f ∈ frames d, (pieces delim f).length ≠ 6 := by
  rw [framePackets, List.filterMap_eq_nil_iff]
  simp only [ChatPacket.fromString_none_iff]

omit [Platform] in
/-- A stretch of a line is one frame. -/
theorem frames_free {w : Str} (free : '\n' ∉ w) (nonempty : w ≠ []) : frames w = [w] := by
  rcases frames_cases w with ⟨empty, -⟩ | ⟨l, rfl, -, -⟩ | ⟨-, many⟩
  · exact absurd empty nonempty
  · simp at free
  · rw [many, Pieces.of_not_mem '\n' w free nonempty]

omit [Platform] in
theorem pieces_dangling (u : Str) :
    pieces delim (u ++ [delim, '\n']) = pieces delim u ++ [['\n']] := by
  rw [List.append_cons, Pieces.append_free_of_boundary delim (u ++ [delim]) ['\n'] (by decide)
      (by simp) (.inr ⟨u, rfl⟩), Pieces.append_self]

/-- A quiet stream has no chunk with a packet. -/
theorem quiet_chunk {s d : Str} (quiet : Quiet s) (part : d <:+: s)
    (short : d.length < bufferSize) :
    framePackets d = [] := by
  rw [framePackets_nil_iff]
  have free (w : Str) (inside : w <:+: d) (line : '\n' ∉ w) : (pieces delim w).length ≠ 6 :=
    quiet.six w (inside.trans part) line (lt_of_le_of_lt inside.length_le short)
  rcases frames_cases d with ⟨rfl, one⟩ | ⟨l, rfl, line, one⟩ | ⟨-, many⟩
  · rw [one]
    intro f member
    rw [List.mem_singleton] at member
    rw [member]
    decide
  · rw [one]
    intro f member
    rw [List.mem_singleton] at member
    subst member
    rcases List.eq_nil_or_concat' l with rfl | ⟨u, c, rfl⟩
    · decide
    · by_cases atDelim : c = delim
      · subst atDelim
        have inLine : '\n' ∉ u := fun member => line (List.mem_append_left _ member)
        rw [List.append_assoc, List.singleton_append, pieces_dangling u]
        have five := quiet.five u (by simpa using part) inLine (by simpa using short)
        simpa using five
      · -- without a delimiter at its end the newline does not count as a field
        obtain ⟨init, last, shape, longer⟩ :=
          Pieces.append_free_of_run delim c u ['\n'] atDelim (by decide)
        have six := free (u ++ [c]) (List.prefix_append _ _).isInfix line
        rw [shape] at six
        rw [longer]
        simpa using six
  · rw [many]
    intro f member
    exact free f (Pieces.isInfix '\n' d f member) (Pieces.spec '\n' d f member).2.1

/-- A stream that is not quiet has a part that fits one read and is a packet. -/
theorem exists_chunk_of_not_quiet {s : Str} (loud : ¬Quiet s) :
    ∃ w, w <:+: s ∧ w ≠ [] ∧ w.length < bufferSize ∧ framePackets w ≠ [] := by
  by_contra all
  push Not at all
  refine loud ⟨fun w part free short six => ?_, fun u part free short five => ?_⟩
  · have nonempty : w ≠ [] := by
      rintro rfl
      simp at six
    have none := framePackets_nil_iff.mp (all w part nonempty short)
    rw [frames_free free nonempty] at none
    exact none w (by simp) six
  · have none := framePackets_nil_iff.mp (all (u ++ [delim, '\n']) part (by simp)
      (by simpa using short))
    have line : '\n' ∉ u ++ [delim] := by simpa [delim] using free
    have whole : frames (u ++ [delim, '\n']) = [u ++ [delim, '\n']] := by
      rw [frames, show u ++ [delim, '\n'] = u ++ [delim] ++ ['\n'] by simp,
        needsSplit_line _ line]
      rfl
    rw [whole] at none
    apply none _ (List.mem_singleton_self _)
    rw [pieces_dangling u, List.length_append, five]
    rfl

/-- A stream cut into its bytes. -/
def singles (s : Str) : List Str := s.map fun c => [c]

omit [Platform] in
theorem flatten_singles (s : Str) : (singles s).flatten = s := by
  induction s with
  | nil => rfl
  | cons c s ih => rw [singles, List.map_cons, List.flatten_cons, ← singles, ih]; rfl

omit [Platform] in
theorem singles_chunk (s : Str) : ∀ d ∈ singles s, d ≠ [] ∧ d.length < bufferSize := by
  intro d member
  obtain ⟨c, -, rfl⟩ := List.mem_map.mp member
  exact ⟨by simp, by simp [bufferSize]⟩

/-- No byte is a packet. -/
theorem singles_idle (s : Str) : ∀ d ∈ singles s, framePackets d = [] := by
  intro d member
  obtain ⟨c, -, rfl⟩ := List.mem_map.mp member
  rw [framePackets_nil_iff]
  intro f among
  have short : f.length ≤ 1 := (isInfix_of_mem_frames among).length_le
  have few := Pieces.length_le_count delim f
  have := List.count_le_length (a := delim) (l := f)
  omega

/-- Cuts next to newlines hand over exactly the well-formed lines, if no line ends in a
delimiter behind five or six fields and no packet logs the bot out. All cuts hand over the
same packets if and only if the stream is quiet. -/
theorem cut_independent (s : Str) (clean : '\x00' ∉ s) (c : Client) (loggedIn : c.loggedIn = true)
    (running : c.halted = false) :
    ((∀ l ∈ pieces '\n' s, ¬Dangling l) → Stays (linePackets s) c.toBot →
      ∀ chunks, Cuts s chunks → Aligned chunks → handed c chunks = linePackets s) ∧
    ((∀ chunks chunks', Cuts s chunks → Cuts s chunks' → handed c chunks = handed c chunks') ↔
      Quiet s) := by
  have cleanChunks {chunks : List Str} (whole : chunks.flatten = s) :
      ∀ d ∈ chunks, '\x00' ∉ d :=
    fun d member zero => clean (whole ▸ List.mem_flatten_of_mem member zero)
  constructor
  · intro closed stays chunks cuts aligned
    have lines := framePackets_of_aligned cuts aligned closed
    rw [← lines] at stays ⊢
    exact handed_of_stays chunks cuts.chunk (cleanChunks cuts.whole) c loggedIn running stays
  constructor
  · intro agree
    by_contra loud
    obtain ⟨w, ⟨before, behind, whole⟩, nonempty, short, packets⟩ := exists_chunk_of_not_quiet loud
    -- the stream in single bytes, and the same with the packet in one chunk
    have bytes : Cuts s (singles s) := ⟨flatten_singles s, singles_chunk s⟩
    have around : Cuts s (singles before ++ w :: singles behind) := by
      constructor
      · rw [List.flatten_append, List.flatten_cons, flatten_singles, flatten_singles,
          ← List.append_assoc, whole]
      · intro d member
        rcases List.mem_append.mp member with early | rest
        · exact singles_chunk before d early
        · rcases List.mem_cons.mp rest with rfl | late
          · exact ⟨nonempty, short⟩
          · exact singles_chunk behind d late
    have nothing := (handed_nil_iff _ bytes.chunk (cleanChunks bytes.whole) c loggedIn running).mpr
      (singles_idle s)
    have some := (handed_nil_iff _ around.chunk (cleanChunks around.whole) c loggedIn
      running).not.mpr fun none => packets (none w (by simp))
    rw [agree _ _ around bytes] at some
    exact some nothing
  · intro quiet chunks chunks' cuts cuts'
    -- a quiet stream hands nothing over, however it is cut
    have idle {chunks : List Str} (cuts : Cuts s chunks) : handed c chunks = [] := by
      apply (handed_nil_iff chunks cuts.chunk (cleanChunks cuts.whole) c loggedIn running).mpr
      intro d member
      refine quiet_chunk quiet ?_ (cuts.chunk d member).2
      rw [← cuts.whole]
      exact List.infix_of_mem_flatten member
    rw [idle cuts, idle cuts']

omit [Platform]

theorem cut_independent_twoLines :
    @handed lp64 ⟨{ Bot.initial .empty .empty .calm with loggedIn := true }, .zero⟩
        ["3`a`b`1`2`3\n".toList, "2`a`_`1`2`3\n".toList] =
      [⟨3, ['a'], ['b'], 1, 2, 3⟩, ⟨2, ['a'], ['_'], 1, 2, 3⟩] := by
  let _ := lp64
  have lines : linePackets "3`a`b`1`2`3\n2`a`_`1`2`3\n".toList =
      [⟨3, ['a'], ['b'], 1, 2, 3⟩, ⟨2, ['a'], ['_'], 1, 2, 3⟩] := by decide
  have closed : ∀ l ∈ pieces '\n' "3`a`b`1`2`3\n2`a`_`1`2`3\n".toList, ¬Dangling l := by
    intro l member
    have split : pieces '\n' "3`a`b`1`2`3\n2`a`_`1`2`3\n".toList =
        ["3`a`b`1`2`3".toList, "2`a`_`1`2`3".toList] := by decide
    rw [split] at member
    simp only [List.mem_cons, List.not_mem_nil, or_false] at member
    rintro ⟨⟨u, ends⟩, -⟩
    have last := congrArg List.getLast? ends
    rcases member with rfl | rfl
    · simp [delim] at last
    · simp [delim] at last
  rw [← lines]
  refine (cut_independent _ (by decide) _ rfl rfl).1 closed ?_ _ ⟨rfl, by decide⟩ ?_
  · rw [lines]
    exact ⟨⟨rfl, rfl⟩, ⟨rfl, rfl⟩, trivial⟩
  · exact .cons_cons (.inl ⟨"3`a`b`1`2`3".toList, rfl⟩) (.singleton _)

/-- A message cut in two is lost. -/
theorem cut_dependent : ∃ (c : Client) (s : Str) (chunks chunks' : List Str),
    c.loggedIn = true ∧ c.halted = false ∧ '\x00' ∉ s ∧ (∃ u, s = u ++ ['\n']) ∧
    @Stays lp64 (@linePackets lp64 s) c.toBot ∧ Cuts s chunks ∧ Cuts s chunks' ∧
    @handed lp64 c chunks ≠ @handed lp64 c chunks' := by
  let _ := lp64
  have lines : linePackets "3`bob`hi`1`2`3\n".toList =
      [⟨3, "bob".toList, "hi".toList, 1, 2, 3⟩] := by decide
  have stays : Stays [⟨3, "bob".toList, "hi".toList, 1, 2, 3⟩]
    { Bot.initial .empty .empty .calm with loggedIn := true } := ⟨⟨rfl, rfl⟩, trivial⟩
  have whole : Cuts "3`bob`hi`1`2`3\n".toList ["3`bob`hi`1`2`3\n".toList] := ⟨rfl, by decide⟩
  have parts : Cuts "3`bob`hi`1`2`3\n".toList ["3`bob`h".toList, "i`1`2`3\n".toList] :=
    ⟨rfl, by decide⟩
  refine ⟨⟨{ Bot.initial .empty .empty .calm with loggedIn := true }, .zero⟩,
    "3`bob`hi`1`2`3\n".toList, _, _, rfl, rfl, by decide, ⟨"3`bob`hi`1`2`3".toList, rfl⟩,
    by rw [lines]; exact stays, whole, parts, ?_⟩
  have nothing := (handed_nil_iff _ parts.chunk (by decide)
    ⟨{ Bot.initial .empty .empty .calm with loggedIn := true }, .zero⟩ rfl rfl).mpr (by decide)
  have some := (handed_nil_iff _ whole.chunk (by decide)
    ⟨{ Bot.initial .empty .empty .calm with loggedIn := true }, .zero⟩ rfl rfl).not.mpr (by decide)
  rw [nothing]
  exact some

end Properties
end MeepBot
