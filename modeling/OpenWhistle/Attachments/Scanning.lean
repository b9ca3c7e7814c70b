import Mathlib
import OpenWhistle.Attachments.Uploads
import OpenWhistle.Foundation.Framing
import OpenWhistle.Foundation.Machine

/-!
# The talk with the scanner

Every upload is sent to the scanner over a connection of its own: a command, the bytes in pieces of
64 KiB, each behind its length, and a length of 0. The scanner may answer as soon as it has seen the
end, or break off with an error before. The network takes any number of bytes at a time, and at any
time the connection may fail or a time run out.

However this goes, the bytes that the scanner has when it sees the end are those of the upload: what
is underway, received or still to be written is together what is to be sent, and a reader that has
seen the end reads no further. So an upload is clean only if the scanner has found these bytes
clean, flagged only if it has found something in them, and in doubt only after a failure. A request
stores its files only if all of them are clean.
-/

set_option autoImplicit false
set_option relaxedAutoImplicit false

namespace OpenWhistle.Attachments.Scanning

/-! ### What is sent -/

def chunk : ℕ := 64 * 1024

def instream : Bytes := Bytes.ascii "zINSTREAM\x00".toList

/-- What is written, one part after the other. -/
def writes (data : Bytes) : List Bytes :=
  instream :: (Framing.slices chunk data).map (Framing.frame 4) ++ [Bytes.toBig 4 0]

/-- The most that is kept of a reply. -/
def maxReplyBytes : ℕ := 4096

/-! ### The scanner -/

/-- What the scanner finds in a file: nothing, or something with a name. -/
structure Clamd where
  verdict : Bytes → Option Name
  short : ∀ file signature, verdict file = some signature → signature.length ≤ 4000
  ascii : ∀ file signature, verdict file = some signature →
    ∀ c ∈ signature, 0 < c.toNat ∧ c.toNat < 128

/-- The file that the scanner has read, once it has seen the end. -/
def fileOf (received : Bytes) : Option Bytes :=
  if instream <+: received then
    match Framing.read 4 .start (received.drop instream.length) with
    | .ended file => some file
    | _ => none
  else none

def replyTo : Option Name → Name
  | none => "stream: OK".toList
  | some signature => "stream: ".toList ++ signature ++ " FOUND".toList

/-- What the scanner says when it breaks off. -/
def complaint (reason : Name) : Name := reason ++ " ERROR".toList

/-- `decode("utf-8", "replace")`. -/
structure Decoder where
  decode : Bytes → Name
  decode_ascii : ∀ text : Name, (∀ c ∈ text, c.toNat < 128) → decode (Bytes.ascii text) = text

/-! ### The connection -/

structure Connection where
  /-- What the application has still to write. -/
  unsent : List Bytes
  /-- Underway to the scanner. -/
  outgoing : Bytes
  received : Bytes
  answered : Bool
  /-- Underway to the application. -/
  incoming : Bytes
  buffer : Bytes
  /-- What `scan_bytes` has come to. -/
  ended : Option Reply
  /-- The connection has failed, a time has run out, or the scanner has broken off. -/
  troubled : Bool

def Connection.start (data : Bytes) : Connection :=
  ⟨writes data, [], [], false, [], [], none, false⟩

inductive Event
  | write
  | deliver (n : ℕ)
  | answer
  | complain (reason : Name)
  | arrive (n : ℕ)
  | look
  | fail (reason : String)

section Talk

variable (decoder : Decoder) (clamd : Clamd)

/-- The scanner sends a reply. -/
def Connection.reply (s : Connection) (text : Name) : Connection :=
  { s with answered := true, incoming := s.incoming ++ Bytes.ascii text ++ [0] }

/-- What is done with a reply that was read. -/
def readReply : Option Bytes → Reply
  | none => .failed "Separator is found, but chunk is longer than limit"
  | some reply => .text (decoder.decode (reply.reverse.dropWhile fun b ↦ decide (b = 0)).reverse)

def step (s : Connection) : Event → Option Connection
  | .write =>
    match s.unsent, s.ended with
    | part :: unsent, none => some { s with unsent := unsent, outgoing := s.outgoing ++ part }
    | _, _ => none
  | .deliver n =>
    some { s with outgoing := s.outgoing.drop n, received := s.received ++ s.outgoing.take n }
  | .answer =>
    match s.answered, fileOf s.received with
    | false, some file => some (s.reply (replyTo (clamd.verdict file)))
    | _, _ => none
  | .complain reason =>
    if s.answered = false ∧ ∀ c ∈ reason, 0 < c.toNat ∧ c.toNat < 128 then
      some { s.reply (complaint reason) with troubled := true }
    else none
  | .arrive n =>
    some { s with incoming := s.incoming.drop n, buffer := s.buffer ++ s.incoming.take n }
  | .look =>
    match s.unsent, s.ended with
    | [], none => (Framing.readUntil maxReplyBytes 0 s.buffer).map fun reply ↦
      { s with ended := some (readReply decoder reply) }
    | _, _ => none
  | .fail reason =>
    match s.ended with
    | none => some { s with ended := some (.failed reason), troubled := true }
    | some _ => none

end Talk

/-! ### What was sent -/

theorem writes_flatten (data : Bytes) :
    (writes data).flatten = instream ++ Framing.stream 4 (Framing.slices chunk data) := by
  rw [writes, Framing.stream, List.cons_append, List.flatten_cons, List.flatten_append,
    List.flatten_singleton, List.flatMap_def]

theorem short_slices (data : Bytes) :
    ∀ piece ∈ Framing.slices chunk data, piece ≠ [] ∧ piece.length < 256 ^ 4 := by
  intro piece hpiece
  obtain ⟨hne, hlength⟩ := Framing.length_of_mem_slices (by decide) hpiece
  exact ⟨hne, lt_of_le_of_lt hlength (by decide)⟩

/-- What the scanner has read it has read behind the command. -/
theorem fileOf_eq_some {received file : Bytes} :
    fileOf received = some file ↔
      ∃ back, received = instream ++ back ∧ Framing.read 4 .start back = .ended file := by
  constructor
  · intro hfile
    unfold fileOf at hfile
    split_ifs at hfile with hcommand
    obtain ⟨back, rfl⟩ := hcommand
    rw [List.drop_left] at hfile
    refine ⟨back, rfl, ?_⟩
    cases hread : Framing.read 4 .start back with
    | length digits content =>
      rw [hread] at hfile
      cases hfile
    | piece left content =>
      rw [hread] at hfile
      cases hfile
    | ended content =>
      rw [hread] at hfile
      rw [Option.some.inj hfile]
  · rintro ⟨back, rfl, hread⟩
    rw [fileOf, if_pos (List.prefix_append _ _), List.drop_left, hread]

theorem fileOf_append {received file : Bytes} (hfile : fileOf received = some file)
    (more : Bytes) : fileOf (received ++ more) = some file := by
  obtain ⟨back, rfl, hread⟩ := fileOf_eq_some.mp hfile
  refine fileOf_eq_some.mpr ⟨back ++ more, List.append_assoc _ _ _, ?_⟩
  rw [Framing.read_append, hread, Framing.read_ended]

/-- The scanner sees the end of nothing but the upload. -/
theorem eq_of_fileOf {data received file : Bytes} (hbegins : received <+: (writes data).flatten)
    (hfile : fileOf received = some file) : file = data := by
  obtain ⟨back, rfl, hread⟩ := fileOf_eq_some.mp hfile
  rw [writes_flatten, List.prefix_append_right_inj] at hbegins
  rw [Framing.eq_flatten_of_prefix (by decide) (short_slices data) hbegins hread,
    Framing.flatten_slices (by decide)]

/-! ### Replies -/

/-- What the application takes for the name of what was found. -/
def shownName (signature : Name) : Name :=
  if Text.stripChars signature = [] then "unknown".toList else Text.stripChars signature

/-- Characters of ASCII, and none of them NUL. -/
def Plain (text : Name) : Prop := ∀ c ∈ text, 0 < c.toNat ∧ c.toNat < 128

theorem plain_of_all {text : Name}
    (htext : text.all (fun c ↦ decide (0 < c.toNat ∧ c.toNat < 128)) = true) : Plain text :=
  Text.forall_of_all htext

theorem not_mem_ascii {text : Name} (htext : Plain text) : (0 : UInt8) ∉ Bytes.ascii text := by
  intro hmem
  obtain ⟨c, hc, hzero⟩ := List.mem_map.mp hmem
  have hnat := congrArg UInt8.toNat hzero
  rw [UInt8.toNat_ofNat'] at hnat
  have hplain := htext c hc
  change c.toNat % 2 ^ 8 = 0 at hnat
  omega

theorem plain_append {front back : Name} (hfront : Plain front) (hback : Plain back) :
    Plain (front ++ back) := by
  intro c hc
  rcases List.mem_append.mp hc with hc | hc
  · exact hfront c hc
  · exact hback c hc

theorem plain_replyTo (clamd : Clamd) (file : Bytes) : Plain (replyTo (clamd.verdict file)) := by
  cases hverdict : clamd.verdict file with
  | none => exact plain_of_all rfl
  | some signature =>
    exact plain_append (plain_append (plain_of_all rfl) (clamd.ascii file signature hverdict))
      (plain_of_all rfl)

theorem length_replyTo (clamd : Clamd) (file : Bytes) :
    (Bytes.ascii (replyTo (clamd.verdict file))).length ≤ maxReplyBytes := by
  rw [Bytes.ascii, List.length_map]
  cases hverdict : clamd.verdict file with
  | none =>
    have hlength : (replyTo none).length = 10 := rfl
    rw [hlength, maxReplyBytes]
    omega
  | some signature =>
    have hshort := clamd.short file signature hverdict
    have hreply : replyTo (some signature) =
        "stream: ".toList ++ signature ++ " FOUND".toList := rfl
    have hstart : "stream: ".toList.length = 8 := rfl
    have hend : " FOUND".toList.length = 6 := rfl
    rw [hreply, List.length_append, List.length_append, hstart, hend, maxReplyBytes]
    omega

theorem plain_complaint {reason : Name} (hreason : Plain reason) : Plain (complaint reason) :=
  plain_append hreason (plain_of_all rfl)

theorem readReply_ascii (decoder : Decoder) {text : Name} (htext : Plain text) :
    readReply decoder (some (Bytes.ascii text ++ [0])) = .text text := by
  have hkept : ((Bytes.ascii text).reverse.dropWhile fun b ↦ decide (b = 0)).reverse =
      Bytes.ascii text := by
    cases hreverse : (Bytes.ascii text).reverse with
    | nil =>
      rw [List.reverse_eq_nil_iff.mp hreverse]
      rfl
    | cons b bytes =>
      have hb : b ≠ 0 := by
        rintro rfl
        refine not_mem_ascii htext (List.mem_reverse.mp ?_)
        rw [hreverse]
        exact List.mem_cons_self
      rw [List.dropWhile_cons, if_neg (by simpa using hb), ← hreverse, List.reverse_reverse]
  rw [readReply, List.reverse_append, List.reverse_singleton, List.singleton_append,
    List.dropWhile_cons, if_pos (decide_eq_true rfl), hkept,
    decoder.decode_ascii text fun c hc ↦ (htext c hc).2]

theorem scanBytes_clean : scanBytes true (.text (replyTo none)) = .ok none := by
  decide

theorem startsWith_append (start text : Name) : startsWith (start ++ text) start = true := by
  rw [startsWith, List.isPrefixOf_iff_prefix]
  exact List.prefix_append start text

theorem endsWith_append (text last : Name) : endsWith (text ++ last) last = true := by
  rw [endsWith, List.isSuffixOf_iff_suffix]
  exact List.suffix_append text last

theorem scanBytes_found (signature : Name) :
    scanBytes true (.text (replyTo (some signature))) = .ok (some (shownName signature)) := by
  have hreply : replyTo (some signature) =
      "stream: ".toList ++ (signature ++ " FOUND".toList) := List.append_assoc _ _ _
  have hlength : "stream: ".toList.length = 8 := rfl
  have hdrop : (replyTo (some signature)).drop 8 = signature ++ " FOUND".toList :=
    hreply ▸ List.drop_left' hlength
  have hstart : startsWith (replyTo (some signature)) "stream: ".toList = true :=
    hreply ▸ startsWith_append _ _
  have hok : signature ++ " FOUND".toList ≠ "OK".toList := by
    intro heq
    have hlength := congrArg List.length heq
    rw [List.length_append] at hlength
    change signature.length + 6 = 2 at hlength
    omega
  have hremove : removeSuffix (signature ++ " FOUND".toList) " FOUND".toList = signature := by
    rw [removeSuffix, if_pos (endsWith_append _ _), List.length_append, Nat.add_sub_cancel]
    exact List.take_left
  rw [scanBytes, if_neg (by decide)]
  dsimp only
  rw [if_pos hstart, hdrop, if_neg hok, if_pos (endsWith_append _ _), hremove]
  rfl

/-- A reply that ends as a complaint does is no verdict. -/
theorem scanBytes_of_last {text shown : Name}
    (hshown : (if startsWith text "stream: ".toList then text.drop 8 else text) = shown)
    (hlast : shown.getLast? = some 'R') :
    scanBytes true (.text text) = .error (String.ofList shown) := by
  have hok : shown ≠ "OK".toList := by
    rintro rfl
    revert hlast
    decide
  have hfound : endsWith shown " FOUND".toList = false := by
    refine Bool.eq_false_of_not_eq_true fun hsuffix ↦ ?_
    obtain ⟨front, rfl⟩ := List.isSuffixOf_iff_suffix.mp hsuffix
    rw [List.getLast?_append_of_ne_nil _ (by decide)] at hlast
    revert hlast
    decide
  rw [scanBytes, if_neg (by decide)]
  dsimp only
  rw [hshown, if_neg hok, hfound]
  rfl

theorem scanBytes_complaint (reason : Name) :
    ∃ shown, scanBytes true (.text (complaint reason)) = .error shown := by
  have hlast : (complaint reason).getLast? = some 'R' := by
    rw [complaint]
    exact List.getLast?_append_of_ne_nil _ (by decide)
  refine ⟨_, scanBytes_of_last rfl ?_⟩
  split_ifs with hstart
  · obtain ⟨rest, hrest⟩ := List.isPrefixOf_iff_prefix.mp hstart
    rw [← hrest] at hlast ⊢
    have hne : rest ≠ [] := by
      rintro rfl
      revert hlast
      decide
    have hdrop : ("stream: ".toList ++ rest).drop 8 = rest := List.drop_left' rfl
    rw [List.getLast?_append_of_ne_nil _ hne] at hlast
    rw [hdrop]
    exact hlast
  · exact hlast

/-! ### What holds at any time -/

variable {decoder : Decoder} {clamd : Clamd} {data : Bytes} {s t : Connection}

/-- A text that the scanner may have sent. -/
def Said (clamd : Clamd) (data : Bytes) (s : Connection) (text : Name) : Prop :=
  (fileOf s.received = some data ∧ text = replyTo (clamd.verdict data)) ∨
    s.troubled = true ∧ ∃ reason, Plain reason ∧ text = complaint reason

/-- What `scan_bytes` may have come to. -/
def Outcome (clamd : Clamd) (data : Bytes) (s : Connection) (reply : Reply) : Prop :=
  (fileOf s.received = some data ∧ reply = .text (replyTo (clamd.verdict data))) ∨
    s.troubled = true ∧ ∃ reason, scanBytes true reply = .error reason

structure Sound (clamd : Clamd) (data : Bytes) (s : Connection) : Prop where
  sent : s.received ++ s.outgoing ++ s.unsent.flatten = (writes data).flatten
  replied : s.answered = false ∧ s.buffer ++ s.incoming = [] ∨
    s.answered = true ∧ ∃ text, Said clamd data s text ∧
      s.buffer ++ s.incoming = Bytes.ascii text ++ [0]
  outcome : ∀ reply, s.ended = some reply → Outcome clamd data s reply

theorem plain_of_said {text : Name} (h : Said clamd data s text) : Plain text := by
  rcases h with ⟨-, rfl⟩ | ⟨-, reason, hreason, rfl⟩
  · exact plain_replyTo clamd data
  · exact plain_complaint hreason

/-- What was received and what has gone wrong stays. -/
theorem Said.later {text : Name} (h : Said clamd data s text)
    (hreceived : ∃ more, t.received = s.received ++ more)
    (htroubled : s.troubled = true → t.troubled = true) : Said clamd data t text := by
  obtain ⟨more, hmore⟩ := hreceived
  rcases h with ⟨hfile, htext⟩ | ⟨htrouble, hreason⟩
  · exact .inl ⟨hmore ▸ fileOf_append hfile more, htext⟩
  · exact .inr ⟨htroubled htrouble, hreason⟩

theorem Outcome.later {reply : Reply} (h : Outcome clamd data s reply)
    (hreceived : ∃ more, t.received = s.received ++ more)
    (htroubled : s.troubled = true → t.troubled = true) : Outcome clamd data t reply := by
  obtain ⟨more, hmore⟩ := hreceived
  rcases h with ⟨hfile, hreply⟩ | ⟨htrouble, hreason⟩
  · exact .inl ⟨hmore ▸ fileOf_append hfile more, hreply⟩
  · exact .inr ⟨htroubled htrouble, hreason⟩

theorem sound_start (clamd : Clamd) (data : Bytes) : Sound clamd data (.start data) where
  sent := rfl
  replied := .inl ⟨rfl, rfl⟩
  outcome := by
    intro reply hended
    cases hended

/-- A reply is sent where there has been none. -/
theorem sound_reply {text : Name} (h : Sound clamd data s) (hanswered : s.answered = false)
    (troubled : Bool) (htroubled : s.troubled = true → troubled = true)
    (hsaid : Said clamd data { s.reply text with troubled := troubled } text) :
    Sound clamd data { s.reply text with troubled := troubled } where
  sent := h.sent
  replied := by
    refine .inr ⟨rfl, text, hsaid, ?_⟩
    rcases h.replied with ⟨-, hnone⟩ | ⟨htrue, -⟩
    · change s.buffer ++ (s.incoming ++ Bytes.ascii text ++ [0]) = _
      rw [← List.append_assoc, ← List.append_assoc, hnone, List.nil_append]
    · rw [hanswered] at htrue
      cases htrue
  outcome reply hended := (h.outcome reply hended).later ⟨[], (List.append_nil _).symm⟩ htroubled

/-- What is found in the buffer is a reply in whole, or the scanner has broken off. -/
theorem outcome_of_look (decoder : Decoder) (h : Sound clamd data s) {reply : Option Bytes}
    (hread : Framing.readUntil maxReplyBytes 0 s.buffer = some reply) :
    Outcome clamd data s (readReply decoder reply) := by
  rcases h.replied with ⟨-, hnone⟩ | ⟨-, text, hsaid, hreply⟩
  · rw [(List.append_eq_nil_iff.mp hnone).1] at hread
    cases hread
  · have hplain := plain_of_said hsaid
    have hbegins : s.buffer <+: Bytes.ascii text ++ [0] := ⟨s.incoming, hreply⟩
    rcases hsaid with ⟨hfile, rfl⟩ | ⟨htrouble, reason, -, rfl⟩
    · rw [Framing.readUntil_prefix (not_mem_ascii hplain) (length_replyTo clamd data) hbegins]
        at hread
      split_ifs at hread with hwhole
      rw [← Option.some.inj hread, hwhole]
      exact .inl ⟨hfile, readReply_ascii decoder hplain⟩
    · refine .inr ⟨htrouble, ?_⟩
      cases reply with
      | none => exact ⟨_, rfl⟩
      | some answer =>
        rw [Framing.eq_of_readUntil (not_mem_ascii hplain) hbegins hread,
          readReply_ascii decoder hplain]
        exact scanBytes_complaint reason

theorem sound_step {event : Event} (h : Sound clamd data s)
    (hstep : step decoder clamd s event = some t) : Sound clamd data t := by
  cases event with
  | write =>
    dsimp only [step] at hstep
    split at hstep
    next part unsent hunsent hended =>
      cases hstep
      refine ⟨?_, h.replied, h.outcome⟩
      have hsent := h.sent
      rw [hunsent, List.flatten_cons] at hsent
      rw [← hsent, List.append_assoc, List.append_assoc, List.append_assoc]
    next => cases hstep
  | deliver n =>
    cases hstep
    refine ⟨?_, ?_, fun reply hended ↦ (h.outcome reply hended).later ⟨_, rfl⟩ id⟩
    · rw [← h.sent, List.append_assoc s.received, List.take_append_drop]
    · rcases h.replied with hnone | ⟨htrue, text, hsaid, hreply⟩
      · exact .inl hnone
      · exact .inr ⟨htrue, text, hsaid.later ⟨_, rfl⟩ id, hreply⟩
  | answer =>
    dsimp only [step] at hstep
    split at hstep
    next file hanswered hfile =>
      cases hstep
      have hbegins : s.received <+: (writes data).flatten :=
        ⟨s.outgoing ++ s.unsent.flatten, by rw [← List.append_assoc, h.sent]⟩
      have hsame := eq_of_fileOf hbegins hfile
      subst hsame
      exact sound_reply h hanswered s.troubled id (.inl ⟨hfile, rfl⟩)
    next => cases hstep
  | complain reason =>
    dsimp only [step] at hstep
    split_ifs at hstep with hcan
    cases hstep
    exact sound_reply h hcan.1 true (fun _ ↦ rfl) (.inr ⟨rfl, reason, hcan.2, rfl⟩)
  | arrive n =>
    cases hstep
    refine ⟨h.sent, ?_, h.outcome⟩
    have hsame : s.buffer ++ s.incoming.take n ++ s.incoming.drop n = s.buffer ++ s.incoming := by
      rw [List.append_assoc, List.take_append_drop]
    dsimp only
    rw [hsame]
    exact h.replied
  | look =>
    dsimp only [step] at hstep
    split at hstep
    next hunsent hended =>
      obtain ⟨reply, hread, rfl⟩ := Option.map_eq_some_iff.mp hstep
      refine ⟨h.sent, h.replied, fun found hfound ↦ ?_⟩
      rw [← Option.some.inj hfound]
      exact outcome_of_look decoder h hread
    next => cases hstep
  | fail reason =>
    dsimp only [step] at hstep
    split at hstep
    next hended =>
      cases hstep
      refine ⟨h.sent, ?_, fun found hfound ↦ ?_⟩
      · rcases h.replied with hnone | ⟨htrue, text, hsaid, hreply⟩
        · exact .inl hnone
        · exact .inr ⟨htrue, text, hsaid.later ⟨[], (List.append_nil _).symm⟩ fun _ ↦ rfl, hreply⟩
      · rw [← Option.some.inj hfound]
        exact .inr ⟨rfl, reason, rfl⟩
    next => cases hstep

/-- The talk about a file, up to where `scan_bytes` has come to a reply. -/
def TalkedOf (decoder : Decoder) (clamd : Clamd) (data : Bytes) (reply : Reply)
    (last : Connection) : Prop :=
  (∃ events, Machine.run (step decoder clamd) (.start data) events = some last) ∧
    last.ended = some reply

theorem outcome_of_talk {reply : Reply} (h : TalkedOf decoder clamd data reply s) :
    Outcome clamd data s reply := by
  obtain ⟨⟨events, hrun⟩, hended⟩ := h
  exact (Machine.run_invariant_of_step (fun _ _ _ hs hstep ↦ sound_step hs hstep)
    (sound_start clamd data) hrun).outcome reply hended

/-- Clean is what the scanner has read in whole and found clean. -/
theorem clean_of_talk {reply : Reply} (h : TalkedOf decoder clamd data reply s)
    (hclean : scanBytes true reply = .ok none) :
    fileOf s.received = some data ∧ clamd.verdict data = none := by
  rcases outcome_of_talk h with ⟨hfile, rfl⟩ | ⟨-, reason, herror⟩
  · refine ⟨hfile, ?_⟩
    cases hverdict : clamd.verdict data with
    | none => rfl
    | some signature =>
      rw [hverdict, scanBytes_found] at hclean
      cases hclean
  · rw [herror] at hclean
    cases hclean

theorem flagged_of_talk {reply : Reply} {shown : Name} (h : TalkedOf decoder clamd data reply s)
    (hflagged : scanBytes true reply = .ok (some shown)) :
    fileOf s.received = some data ∧
      ∃ signature, clamd.verdict data = some signature ∧ shown = shownName signature := by
  rcases outcome_of_talk h with ⟨hfile, rfl⟩ | ⟨-, reason, herror⟩
  · refine ⟨hfile, ?_⟩
    cases hverdict : clamd.verdict data with
    | none =>
      rw [hverdict, scanBytes_clean] at hflagged
      cases hflagged
    | some signature =>
      rw [hverdict, scanBytes_found] at hflagged
      cases hflagged
      exact ⟨signature, rfl, rfl⟩
  · rw [herror] at hflagged
    cases hflagged

theorem troubled_of_talk {reply : Reply} {reason : String}
    (h : TalkedOf decoder clamd data reply s) (herror : scanBytes true reply = .error reason) :
    s.troubled = true := by
  rcases outcome_of_talk h with ⟨-, rfl⟩ | ⟨htrouble, -⟩
  · cases hverdict : clamd.verdict data with
    | none =>
      rw [hverdict, scanBytes_clean] at herror
      cases herror
    | some signature =>
      rw [hverdict, scanBytes_found] at herror
      cases herror
  · exact htrouble

/-! ### A request -/

variable {letters : Text.Letters} {strippers : Strippers}

/-- The checks in front of the scan say nothing about it. -/
theorem key_validateFile {name : Name} {size : ℕ} {head : Bytes} {error : UploadError}
    (h : validateFile letters name size head = some error) :
    error.key ≠ "upload.error.malware" ∧ error.key ≠ "upload.error.scan_unavailable" := by
  unfold validateFile at h
  dsimp only at h
  split_ifs at h <;> cases h <;>
    simp [UploadError.legacyOffice, UploadError.tooLarge, UploadError.badExtension,
      UploadError.contentMismatch]

/-- What the reading of a part says about the scan is what the scan has come to. -/
theorem scan_of_readFile {filename : Name} {bytes : Bytes} {reply : Reply} {error : UploadError}
    {calls : List Action}
    (h : readFile letters strippers true filename bytes reply = some (.error error, calls)) :
    (error.key = "upload.error.malware" → ∃ shown, scanBytes true reply = .ok (some shown)) ∧
      (error.key = "upload.error.scan_unavailable" →
        ∃ reason, scanBytes true reply = .error reason) := by
  unfold readFile at h
  dsimp only at h
  split at h
  next found hfound =>
    cases h
    have hkeys := key_validateFile (Option.eq_some_of_filter_eq_some hfound)
    exact ⟨fun hkey ↦ absurd hkey hkeys.1, fun hkey ↦ absurd hkey hkeys.2⟩
  next =>
    split at h
    next reason hscan =>
      cases h
      exact ⟨fun hkey ↦ by simp [UploadError.scanUnavailable] at hkey, fun _ ↦ ⟨reason, hscan⟩⟩
    next shown hscan =>
      cases h
      exact ⟨fun _ ↦ ⟨shown, hscan⟩, fun hkey ↦ by simp [UploadError.malware] at hkey⟩
    next hscan =>
      split at h
      next =>
        cases h
        constructor <;> simp [UploadError.metadata]
      next =>
        split_ifs at h
        · cases h
          constructor <;> simp [UploadError.tooLarge]
        · obtain ⟨_, -, hfile⟩ := Option.map_eq_some_iff.mp h
          cases hfile

/-- A request is refused for too many files, or for one that the reading has refused. -/
theorem exists_of_readLoop {uploads : List UploadFile} {result files : List File}
    {actions calls : List Action} {error : UploadError}
    (h : readLoop letters strippers true uploads result actions =
      some ((files, some error), calls)) :
    error = .tooMany ∨ ∃ upload ∈ uploads, ∃ filename bytes made,
      readFile letters strippers true filename bytes upload.reply = some (.error error, made) := by
  induction uploads generalizing result actions with
  | nil => cases h
  | cons upload uploads ih =>
    have hlater : ∀ {result actions}, readLoop letters strippers true uploads result actions =
        some ((files, some error), calls) → error = .tooMany ∨ ∃ u ∈ upload :: uploads,
          ∃ filename bytes made,
            readFile letters strippers true filename bytes u.reply = some (.error error, made) := by
      intro result actions hrest
      rcases ih hrest with hmany | ⟨u, hu, hrefused⟩
      · exact .inl hmany
      · exact .inr ⟨u, List.mem_cons_of_mem _ hu, hrefused⟩
    unfold readLoop at h
    dsimp only at h
    split at h
    next => exact hlater h
    next filename _ =>
      split_ifs at h
      · cases h
        exact .inl rfl
      · exact hlater h
      · split at h
        next => cases h
        next found made hread =>
          cases h
          exact .inr ⟨upload, List.mem_cons_self, filename, _, made, hread⟩
        next => exact hlater h

theorem forall₂_of_talks {talks : List (UploadFile × Connection)}
    (htalks : ∀ talk ∈ talks, TalkedOf decoder clamd talk.1.content talk.1.reply talk.2)
    {files : List File}
    (hstored : List.Forall₂ (Stored letters strippers true) (talks.map Prod.fst) files) :
    List.Forall₂ (fun talk file ↦ fileOf talk.2.received = some talk.1.content ∧
      clamd.verdict talk.1.content = none ∧
      stripMetadata letters strippers file.name talk.1.content = .ok file.data) talks files := by
  induction talks generalizing files with
  | nil =>
    cases hstored
    exact .nil
  | cons talk talks ih =>
    cases hstored with
    | cons hfile hfiles =>
      obtain ⟨hread, hclean⟩ := clean_of_talk (htalks talk List.mem_cons_self) hfile.clean
      refine .cons ⟨hread, hclean, hfile.cleaned⟩ ?_
      exact ih (fun later hlater ↦ htalks later (List.mem_cons_of_mem _ hlater)) hfiles

/-- Every part of a request is talked about with the scanner, and each talk goes as it may. If there
is no error, the scanner has read each part in whole and found it clean, and the files are what
these bytes are cleaned to. If there is one, there are no files; it names a flagged file only if the
scanner has found something in a part that it has read in whole, and an unavailable scanner only
after a failure. -/
theorem stored_files_were_found_clean {talks : List (UploadFile × Connection)}
    {files : List File} {error : Option UploadError} {actions : List Action}
    (htalks : ∀ talk ∈ talks, TalkedOf decoder clamd talk.1.content talk.1.reply talk.2)
    (hread : readUploadFiles letters strippers true (talks.map Prod.fst) =
      some ((files, error), actions)) :
    (error = none → List.Forall₂ (fun talk file ↦ fileOf talk.2.received = some talk.1.content ∧
        clamd.verdict talk.1.content = none ∧
        stripMetadata letters strippers file.name talk.1.content = .ok file.data)
      (talks.filter fun talk ↦ talk.1.isPart) files) ∧
    (error ≠ none → files = []) ∧
    (∀ found, error = some found → found.key = "upload.error.malware" →
      ∃ talk ∈ talks, fileOf talk.2.received = some talk.1.content ∧
        (clamd.verdict talk.1.content).isSome = true) ∧
    ∀ found, error = some found → found.key = "upload.error.scan_unavailable" →
      ∃ talk ∈ talks, talk.2.troubled = true := by
  obtain ⟨reading, hreading, hends⟩ := readLoop_ends letters strippers true (talks.map Prod.fst) []
    [] (Nat.zero_le _)
  have hsame : ((files, error), actions) = reading := Option.some.inj (hread.symm.trans hreading)
  have hrefused : ∀ found, error = some found → found = .tooMany ∨
      ∃ talk ∈ talks, ∃ filename bytes made, readFile letters strippers true filename bytes
        talk.1.reply = some (.error found, made) := by
    rintro found rfl
    rcases exists_of_readLoop hread with hmany | ⟨upload, hupload, hreadFile⟩
    · exact .inl hmany
    · obtain ⟨talk, htalk, rfl⟩ := List.mem_map.mp hupload
      exact .inr ⟨talk, htalk, hreadFile⟩
  refine ⟨fun hnone ↦ ?_, fun hsome ↦ ?_, fun found hfound hkey ↦ ?_, fun found hfound hkey ↦ ?_⟩
  · rcases hends with ⟨stored, heq, -, hstored⟩ | ⟨found, _, _, _, _, _, heq, _⟩
    · rw [heq, List.nil_append] at hsame
      cases hsame
      rw [List.filter_map] at hstored
      exact forall₂_of_talks (fun talk htalk ↦ htalks talk (List.mem_of_mem_filter htalk)) hstored
    · rw [heq, hnone] at hsame
      cases hsame
  · rcases hends with ⟨stored, heq, -, hstored⟩ | ⟨found, _, _, _, _, _, heq, _⟩
    · rw [heq] at hsame
      cases hsame
      exact absurd rfl hsome
    · rw [heq] at hsame
      cases hsame
      rfl
  · rcases hrefused found hfound with rfl | ⟨talk, htalk, _, _, _, hreadFile⟩
    · exact absurd hkey (by decide)
    · obtain ⟨shown, hscan⟩ := (scan_of_readFile hreadFile).1 hkey
      obtain ⟨hfile, signature, hverdict, -⟩ := flagged_of_talk (htalks talk htalk) hscan
      exact ⟨talk, htalk, hfile, by rw [hverdict]; rfl⟩
  · rcases hrefused found hfound with rfl | ⟨talk, htalk, _, _, _, hreadFile⟩
    · exact absurd hkey (by decide)
    · obtain ⟨reason, hscan⟩ := (scan_of_readFile hreadFile).2 hkey
      exact ⟨talk, htalk, troubled_of_talk (htalks talk htalk) hscan⟩

/-! ### A clean file and a flagged one -/

/-- Every byte as one character. -/
def latin : Decoder where
  decode bytes := bytes.map fun b ↦ Char.ofNat b.toNat
  decode_ascii text htext := by
    have hsame : ∀ c ∈ text, Char.ofNat (UInt8.ofNat c.toNat).toNat = c := by
      intro c hc
      have hsmall := htext c hc
      rw [UInt8.toNat_ofNat', Nat.mod_eq_of_lt (by omega), Char.ofNat_toNat]
    rw [Bytes.ascii, List.map_map]
    exact (List.map_congr_left hsame).trans (List.map_id _)

/-- A scanner that flags one file. -/
def picky : Clamd where
  verdict file := if file = [0x58] then some "Eicar".toList else none
  short file signature h := by
    split_ifs at h
    cases h
    decide
  ascii file signature h := by
    split_ifs at h
    cases h
    exact plain_of_all rfl

def asTheyAre : Strippers where
  stripImage := .ok
  stripPdf := .ok
  stripOoxml := .ok

def note : UploadFile := ⟨some "note.txt".toList, [72, 105], .text "stream: OK".toList⟩

def flagged : UploadFile :=
  ⟨some "flagged.txt".toList, [0x58], .text "stream: Eicar FOUND".toList⟩

def portions : List Event :=
  [.write, .deliver 4, .write, .write, .deliver 9, .deliver 100, .answer, .arrive 3, .arrive 100,
    .look]

def isText (text : Name) (s : Connection) : Bool :=
  match s.ended with
  | some (.text reply) => decide (reply = text)
  | _ => false

theorem talkedOf_of_isText {text : Name} (events : List Event)
    (h : (Machine.run (step decoder clamd) (.start data) events).map (isText text) = some true) :
    ∃ last, TalkedOf decoder clamd data (.text text) last := by
  obtain ⟨last, hrun, htext⟩ := Option.map_eq_some_iff.mp h
  refine ⟨last, ⟨events, hrun⟩, ?_⟩
  unfold isText at htext
  split at htext
  next reply hended => rw [hended, of_decide_eq_true htext]
  next => cases htext

/-- The second file is flagged, and the first one is not stored either. -/
theorem stored_files_were_found_clean_of_two : ∃ files error actions,
    readUploadFiles Text.Letters.ascii asTheyAre true [note, flagged] =
      some ((files, some error), actions) ∧ files = [] ∧
    ∃ talk : UploadFile × Connection, fileOf talk.2.received = some talk.1.content ∧
      (picky.verdict talk.1.content).isSome = true := by
  obtain ⟨first, hfirst⟩ : ∃ last, TalkedOf latin picky note.content note.reply last :=
    talkedOf_of_isText portions (by decide +kernel)
  obtain ⟨second, hsecond⟩ : ∃ last, TalkedOf latin picky flagged.content flagged.reply last :=
    talkedOf_of_isText portions (by decide +kernel)
  have hkeys : (readUploadFiles Text.Letters.ascii asTheyAre true [note, flagged]).map
      (fun reading ↦ reading.1.2.map UploadError.key) = some (some "upload.error.malware") := by
    decide +kernel
  obtain ⟨⟨⟨files, refusal⟩, actions⟩, hread, hrefusal⟩ := Option.map_eq_some_iff.mp hkeys
  obtain ⟨error, herror, hkey⟩ := Option.map_eq_some_iff.mp hrefusal
  dsimp only at herror
  subst herror
  have htalks : ∀ talk ∈ [(note, first), (flagged, second)],
      TalkedOf latin picky talk.1.content talk.1.reply talk.2 := by
    intro talk htalk
    rcases List.mem_cons.mp htalk with rfl | htalk
    · exact hfirst
    · rw [List.mem_singleton.mp htalk]
      exact hsecond
  obtain ⟨-, hfiles, hmalware, -⟩ := stored_files_were_found_clean htalks hread
  obtain ⟨talk, -, hfile, hverdict⟩ := hmalware error rfl hkey
  exact ⟨files, error, actions, hread, hfiles (Option.some_ne_none _), talk, hfile, hverdict⟩

end OpenWhistle.Attachments.Scanning
