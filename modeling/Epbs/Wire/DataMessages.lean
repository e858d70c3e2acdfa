/-
Data messages between the nodes: `msg_send`, the pipe of the receiving node, and `msg_recv`.

* `DataMessage`, `DataMessage.encode`: what one `msg_send` writes on its connection;
* `msgRecv`: one read of the pipe, and the tests on what was read;
* `MsgStep`, `dataMachine`: sends of all nodes to one node, `deal_msg_request` which moves
  what one read of a connection gives into the pipe, and `msg_recv`;
* `HeadFits`: the message at the head of the pipe was read whole and comes from the node
  that is named, or its length is another one;
* `InPipe`, `inPipe_of_reach`: the pipe is made of the messages that were dealt with;
* `received_in_order`: if every `msg_recv` finds a head that fits, it delivers what was sent.
-/
import Epbs.Machine.Guarded
import Epbs.Machine.Words
import Epbs.Server.Messages

namespace Epbs

open Words

/-! ### Messages -/

/-- `MSG_TYPE_DATA`. -/
def msgTypeData : ℤ := 1

/-- What `msg_send` is given, without the node it sends to, and the two words of the header
that it does not write. -/
structure DataMessage where
  src : CInt
  payload : {bytes : Bytes // bytes.length < 2147483648}
  unset : {bytes : Bytes // bytes.length = 8}

/-- The length of a payload, an `int`. -/
def DataMessage.len (m : DataMessage) : CInt :=
  ⟨m.payload.1.length, by have hlen := m.payload.2; omega⟩

/-- The words of the header that `msg_send` writes. -/
def DataMessage.head (dist : CInt) (m : DataMessage) : List ℤ :=
  [msgTypeData, m.src, dist, m.len]

/-- **The message of `msg_send`**. -/
def DataMessage.encode (dist : CInt) (m : DataMessage) : Bytes :=
  encodeInts (m.head dist) ++ (m.unset.1 ++ m.payload.1)

lemma DataMessage.length_encode (dist : CInt) (m : DataMessage) :
    (m.encode dist).length = 24 + m.payload.1.length := by
  simp only [encode, head, List.length_append, length_encodeInts, List.length_cons,
    List.length_nil, m.unset.2]
  omega

/-- How `msg_recv` ends: the process exits, or it returns with its buffer filled. -/
inductive RecvEnd where
  | exits
  | returns (buffer : Bytes) (rbytes : ℤ)
  deriving DecidableEq

/-- A length that `msg_recv` is called with. -/
abbrev MsgLen := {len : ℕ // len < 2147483648}

/-- **`msg_recv`** on the bytes in the pipe: what it leaves there, and how it ends.  `nbytes`
is an `int`, and `dist` is only printed. -/
def msgRecv (localId src _dist : ℤ) (len : MsgLen)
    (stale : {bytes : Bytes // bytes.length = len + 24}) (pipe : Bytes) : Bytes × RecvEnd :=
  if src ≠ localId then (pipe, .exits)
  else
    let nbytes := Int.bmod (len + 24) 4294967296
    let got := if nbytes < 0 then [] else pipe.take nbytes.toNat
    let rbytes : ℤ := if nbytes < 0 then -1 else got.length
    let msgbuffer := got ++ stale.1.drop got.length
    let rest := pipe.drop got.length
    if intAt msgbuffer 0 ≠ some msgTypeData then (rest, .exits)
    else if intAt msgbuffer 8 ≠ some src then (rest, .exits)
    else if intAt msgbuffer 12 ≠ some (len : ℤ) then (rest, .exits)
    else (rest, .returns ((msgbuffer.drop 24).take len) rbytes)

/-! ### The messages to one node -/

/-- A message with the number of its bytes that were read. -/
structure Dealt where
  msg : DataMessage
  taken : ℕ

/-- The messages to one node: the connections of each node that were not accepted yet, and
the pipe.  The rest is history: what was sent and received, and which messages the pipe is
made of. -/
structure DataState where
  connections : CInt → List DataMessage
  pipe : Bytes
  exited : Bool
  sent : CInt → List Bytes
  received : CInt → List Bytes
  dealt : List Dealt

/-- What happens: a node calls `msg_send`, `deal_msg_request` accepts the next connection of
a node and its one read gives so many bytes, and `msg_recv` is called for a node. -/
inductive MsgStep where
  | send (m : DataMessage)
  | deal (src : CInt) (nbytes : ℕ)
  | recv (dist : CInt) (len : MsgLen) (stale : {bytes : Bytes // bytes.length = len + 24})

/-- `msg_send` of a node. -/
def DataState.msgSend (m : DataMessage) (s : DataState) : DataState :=
  { s with
    connections := Function.update s.connections m.src (s.connections m.src ++ [m])
    sent := Function.update s.sent m.src (s.sent m.src ++ [m.payload.1]) }

/-- **An iteration of `deal_msg_request`**: what was read goes into the pipe. -/
def DataState.dealMsgRequest (localId src : CInt) (nbytes : ℕ) (s : DataState) :
    Option DataState :=
  match s.connections src with
  | [] => none
  | m :: rest =>
      if nbytes ≤ msgBuffSize ∧ nbytes ≤ (m.encode localId).length then
        some { s with
          connections := Function.update s.connections src rest
          pipe := s.pipe ++ (m.encode localId).take nbytes
          dealt := if nbytes = 0 then s.dealt else s.dealt ++ [⟨m, nbytes⟩] }
      else none

/-- `msg_recv` of the local node; it waits while the pipe is empty. -/
def DataState.recv (localId dist : CInt) (len : MsgLen)
    (stale : {bytes : Bytes // bytes.length = len + 24}) (s : DataState) : Option DataState :=
  if s.pipe = [] ∧ 0 ≤ Int.bmod (len + 24) 4294967296 then none
  else
    match msgRecv localId localId dist len stale s.pipe with
    | (rest, .exits) => some { s with pipe := rest, exited := true }
    | (rest, .returns buffer _) =>
        some { s with
          pipe := rest
          received := Function.update s.received dist (s.received dist ++ [buffer])
          dealt := s.dealt.tail }

/-- **The data messages to one node**; nothing happens there after the process exited. -/
def dataMachine (localId : CInt) : Machine DataState MsgStep where
  init := ⟨fun _ => [], [], false, fun _ => [], fun _ => [], []⟩
  step l s :=
    if s.exited then none
    else match l with
      | .send m => some (s.msgSend m)
      | .deal src nbytes => s.dealMsgRequest localId src nbytes
      | .recv dist len stale => s.recv localId dist len stale

/-- **`msg_recv` returns what `msg_send` sent**: what was received for a node is what this
node sent, each message at most once and in the order of the sends. -/
def InOrder (s : DataState) : Prop := ∀ i, (s.received i).Sublist (s.sent i)

/-- The message at the head of the pipe was read as far as its length, and if it has the
length that is asked for, it was read whole and comes from the node that is named. -/
def HeadFits (dist : CInt) (len : MsgLen) (s : DataState) : Prop :=
  (len : ℕ) + 24 < 2147483648 ∧ ∀ d ∈ s.dealt.head?,
    16 ≤ d.taken ∧ (d.msg.payload.1.length = len → d.taken = 24 + len ∧ d.msg.src = dist)

/-- Every `msg_recv` finds a head that fits. -/
def RecvFits (s : DataState) : MsgStep → Prop
  | .recv dist len _ => HeadFits dist len s
  | _ => True

instance (dist : CInt) (len : MsgLen) (s : DataState) : Decidable (HeadFits dist len s) :=
  inferInstanceAs (Decidable (_ ∧ _))

instance (s : DataState) : (l : MsgStep) → Decidable (RecvFits s l)
  | .recv dist len _ => inferInstanceAs (Decidable (HeadFits dist len s))
  | .send _ | .deal _ _ => inferInstanceAs (Decidable True)

/-! ### The pipe -/

section Recv

variable {localId dist : CInt} {len : MsgLen} {d : Dealt} {rest : Bytes}
  {stale : {bytes : Bytes // bytes.length = len + 24}}

/-- The bytes of a message that were read. -/
def Dealt.bytes (localId : CInt) (d : Dealt) : Bytes := (d.msg.encode localId).take d.taken

/-- A message of which more than the four words were read begins with them. -/
lemma Dealt.bytes_eq (h : 16 ≤ d.taken) :
    d.bytes localId = encodeInts (d.msg.head localId) ++
      (d.msg.unset.1 ++ d.msg.payload.1).take (d.taken - 16) := by
  have hlen : (encodeInts (d.msg.head localId)).length = 16 := length_encodeInts _
  rw [bytes, DataMessage.encode, List.take_append, List.take_of_length_le (by omega), hlen]

/-- The `int` for a read of the pipe. -/
lemma bmod_len (h : (len : ℕ) + 24 < 2147483648) :
    Int.bmod (len + 24) 4294967296 = (len : ℤ) + 24 := by
  rw [Int.bmod_eq_of_le] <;> omega

/-- **`msg_recv` at the head of the pipe**: it exits or it returns what is behind the header,
whoever sent the message. -/
lemma msgRecv_head (hlen : (len : ℕ) + 24 < 2147483648) (h : 16 ≤ d.taken) :
    msgRecv localId localId dist len stale (d.bytes localId ++ rest) =
      let got := (d.bytes localId ++ rest).take (len + 24)
      let msgbuffer := got ++ stale.1.drop got.length
      ((d.bytes localId ++ rest).drop got.length,
        if d.msg.payload.1.length = len then .returns ((msgbuffer.drop 24).take len) got.length
        else .exits) := by
  have hnbytes := bmod_len hlen
  have hpos : ¬Int.bmod (len + 24) 4294967296 < 0 := by omega
  have hnat : (Int.bmod (len + 24) 4294967296).toNat = len + 24 := by omega
  have hfour : (encodeInts (d.msg.head localId)).length = 16 := length_encodeInts _
  -- the read takes the four words with it
  obtain ⟨tail, htail⟩ : ∃ tail, (d.bytes localId ++ rest).take (len + 24) =
      encodeInts (d.msg.head localId) ++ tail := by
    rw [d.bytes_eq h, List.append_assoc, List.take_append,
      List.take_of_length_le (by omega)]
    exact ⟨_, rfl⟩
  have hword : ∀ (k : ℕ) (w : CInt) (after : Bytes), (d.msg.head localId)[k]? = some w.1 →
      intAt ((d.bytes localId ++ rest).take (len + 24) ++ after) (4 * k : ℕ) = some w.1 := by
    intro k w after hw
    rw [htail, List.append_assoc]
    exact intAt_encodeInts hw _
  have htype := fun after => hword 0 ⟨msgTypeData, by decide⟩ after rfl
  have hdist := fun after => hword 2 localId after rfl
  have hmlen := fun after => hword 3 d.msg.len after rfl
  norm_num at htype hdist hmlen
  have hiff : (d.msg.len.1 = (len : ℤ)) ↔ d.msg.payload.1.length = len := by
    rw [DataMessage.len]
    exact Nat.cast_inj
  simp only [msgRecv, ne_eq, not_true_eq_false, if_false, hpos, hnat, htype, hdist, hmlen,
    Option.some.injEq, hiff]
  split_ifs <;> rfl

/-- **A whole message of the length asked for** is taken from the pipe as it was sent. -/
lemma msgRecv_whole (hlen : (len : ℕ) + 24 < 2147483648) (hmlen : d.msg.payload.1.length = len)
    (hwhole : d.taken = 24 + len) :
    msgRecv localId localId dist len stale (d.bytes localId ++ rest) =
      (rest, .returns d.msg.payload.1 (24 + len : ℕ)) := by
  have hsize : (d.msg.encode localId).length = 24 + len := by
    rw [DataMessage.length_encode, hmlen]
  have hbytes : d.bytes localId = d.msg.encode localId := by
    rw [Dealt.bytes, hwhole, List.take_of_length_le hsize.le]
  have hread : (d.msg.encode localId ++ rest).take (len + 24) = d.msg.encode localId := by
    rw [add_comm, ← hsize, List.take_left]
  have hbehind : ((d.msg.encode localId).drop 24).take len = d.msg.payload.1 := by
    have hhead : (encodeInts (d.msg.head localId) ++ d.msg.unset.1).length = 24 := by
      rw [List.length_append, length_encodeInts, d.msg.unset.2]
      rfl
    calc ((d.msg.encode localId).drop 24).take len = d.msg.payload.1.take len := by
          rw [DataMessage.encode, ← List.append_assoc, ← hhead, List.drop_left]
      _ = d.msg.payload.1 := by rw [← hmlen, List.take_length]
  rw [msgRecv_head hlen (by omega)]
  simp only [if_pos hmlen, hbytes, hread, hsize]
  rw [List.drop_eq_nil_of_le (stale.2.trans (add_comm _ _)).le, List.append_nil, hbehind, ← hsize,
    List.drop_left]

end Recv

/-! ### Every run -/

/-- The payloads of one node among the messages in the pipe. -/
def payloadsOf (i : CInt) (dealt : List Dealt) : List Bytes :=
  (dealt.filter (·.msg.src = i)).map (·.msg.payload.1)

lemma payloadsOf_cons (i : CInt) (d : Dealt) (ds : List Dealt) :
    payloadsOf i (d :: ds) =
      if d.msg.src = i then d.msg.payload.1 :: payloadsOf i ds else payloadsOf i ds := by
  simp only [payloadsOf, List.filter_cons, decide_eq_true_eq]
  split_ifs <;> rfl

lemma payloadsOf_concat (i : CInt) (ds : List Dealt) (d : Dealt) :
    payloadsOf i (ds ++ [d]) =
      if d.msg.src = i then payloadsOf i ds ++ [d.msg.payload.1] else payloadsOf i ds := by
  simp only [payloadsOf, List.filter_append, List.map_append, List.filter_cons, List.filter_nil,
    decide_eq_true_eq]
  split_ifs
  · rfl
  · exact List.append_nil _

/-- **What the pipe is made of**, and what is still to come: of each node in the order of its
sends. -/
structure InPipe (localId : CInt) (s : DataState) : Prop where
  bytes : s.exited = false → s.pipe = s.dealt.flatMap (Dealt.bytes localId)
  src : ∀ i, ∀ m ∈ s.connections i, m.src = i
  order : ∀ i, (s.received i ++ (payloadsOf i s.dealt ++
    (s.connections i).map (·.payload.1))).Sublist (s.sent i)

namespace InPipe

variable {localId : CInt} {s s' : DataState}

lemma init (localId : CInt) : InPipe localId (dataMachine localId).init :=
  ⟨fun _ => rfl, fun _ _ hm => absurd hm List.not_mem_nil, fun _ => .slnil⟩

/-- A send is the last of its node. -/
lemma msgSend (h : InPipe localId s) (m : DataMessage) : InPipe localId (s.msgSend m) := by
  refine ⟨h.bytes, fun i m' hm' => ?_, fun i => ?_⟩
  · simp only [DataState.msgSend, Function.update_apply] at hm'
    split_ifs at hm' with hi
    · rcases List.mem_append.mp hm' with hmem | hmem
      · exact hi ▸ h.src m.src m' hmem
      · rw [List.mem_singleton.mp hmem, hi]
    · exact h.src i m' hm'
  · simp only [DataState.msgSend, Function.update_apply]
    split_ifs with hi
    · subst hi
      rw [List.map_append, ← List.append_assoc, ← List.append_assoc]
      refine List.Sublist.append ?_ (List.Sublist.refl _)
      rw [List.append_assoc]
      exact h.order m.src
    · exact h.order i

/-- The oldest connection of a node is accepted. -/
lemma src_tail (h : InPipe localId s) {src : CInt} {m : DataMessage} {rest : List DataMessage}
    (hconn : s.connections src = m :: rest) :
    m.src = src ∧ ∀ i, ∀ m' ∈ Function.update s.connections src rest i, m'.src = i := by
  refine ⟨h.src src m (hconn ▸ List.mem_cons_self), fun i m' hm' => ?_⟩
  rw [Function.update_apply] at hm'
  split_ifs at hm' with hi
  · rw [hi]
    exact h.src src m' (hconn ▸ List.mem_cons_of_mem m hm')
  · exact h.src i m' hm'

/-- The oldest connection of a node goes behind what is in the pipe, or is lost. -/
lemma dealMsgRequest (h : InPipe localId s) {src : CInt} {nbytes : ℕ}
    (hs : s.dealMsgRequest localId src nbytes = some s') : InPipe localId s' := by
  rw [DataState.dealMsgRequest] at hs
  cases hconn : s.connections src with
  | nil =>
      rw [hconn] at hs
      cases hs
  | cons m rest =>
      simp only [hconn] at hs
      obtain ⟨hsrc, hrest⟩ := h.src_tail hconn
      split_ifs at hs with hfits hzero
      · -- nothing was read, and the message is lost
        cases hs
        refine ⟨fun hexited => ?_, hrest, fun i => ?_⟩
        · rw [hzero, List.take_zero, List.append_nil]
          exact h.bytes hexited
        · have horder := h.order i
          simp only [Function.update_apply]
          split_ifs with hi
          · subst hi
            rw [hconn, List.map_cons] at horder
            exact ((List.Sublist.refl _).append ((List.Sublist.refl _).append
              (List.sublist_cons_self _ _))).trans horder
          · exact horder
      · cases hs
        refine ⟨fun hexited => ?_, hrest, fun i => ?_⟩
        · simp only
          rw [h.bytes hexited, List.flatMap_append, List.flatMap_singleton]
          rfl
        · have horder := h.order i
          simp only [Function.update_apply, payloadsOf_concat, hsrc, eq_comm (a := src)]
          split_ifs with hi
          · subst hi
            rw [hconn] at horder
            rw [List.append_assoc]
            exact horder
          · exact horder

/-- A head that fits is received as it was sent, or not at all: if the length asked for is not
that of the message, `msg_recv` exits. -/
lemma recv (h : InPipe localId s) (hexited : s.exited = false) {dist : CInt} {len : MsgLen}
    {stale : {bytes : Bytes // bytes.length = len + 24}} (hfits : HeadFits dist len s)
    (hs : s.recv localId dist len stale = some s') : InPipe localId s' := by
  obtain ⟨hlen, hhead⟩ := hfits
  have hpipe := h.bytes hexited
  cases hdealt : s.dealt with
  | nil =>
      -- the pipe is empty, and the call waits
      rw [hdealt] at hpipe
      rw [DataState.recv, if_pos ⟨hpipe, by rw [bmod_len hlen]; omega⟩] at hs
      cases hs
  | cons d ds =>
      rw [hdealt, List.flatMap_cons] at hpipe
      obtain ⟨hread, hsame⟩ := hhead d (by rw [hdealt]; rfl)
      have hsome : s.pipe ≠ [] := by
        rw [hpipe, d.bytes_eq hread]
        exact fun hnil => by cases hnil
      rw [DataState.recv, if_neg fun hempty => hsome hempty.1, hpipe] at hs
      by_cases hmlen : d.msg.payload.1.length = len
      · obtain ⟨hwhole, hsrc⟩ := hsame hmlen
        rw [msgRecv_whole hlen hmlen hwhole] at hs
        cases hs
        refine ⟨fun _ => by rw [hdealt, List.tail_cons], h.src, fun i => ?_⟩
        have horder := h.order i
        rw [hdealt, payloadsOf_cons, hsrc] at horder
        simp only [Function.update_apply, hdealt, List.tail_cons, eq_comm (a := i)]
        split_ifs at horder ⊢ with hi
        · subst hi
          rw [List.append_assoc]
          exact horder
        · exact horder
      · simp only [msgRecv_head hlen hread, if_neg hmlen] at hs
        cases hs
        exact ⟨fun hnot => Bool.noConfusion hnot, h.src, h.order⟩

end InPipe

/-- **What the pipe is made of**, in every run in which the heads fit. -/
theorem inPipe_of_reach {localId : CInt} {s : DataState}
    (h : (dataMachine localId).Reach RecvFits s) : InPipe localId s := by
  refine h.invariant (I := InPipe localId) (.init localId) ?_
  intro s l s' _ hs hfits hstep
  simp only [dataMachine] at hstep
  split_ifs at hstep with hexited
  cases l with
  | send m =>
      cases hstep
      exact hs.msgSend m
  | deal src nbytes => exact hs.dealMsgRequest hstep
  | recv dist len stale => exact hs.recv (Bool.eq_false_iff.mpr hexited) hfits hstep

/-- **`msg_recv` returns what `msg_send` sent**, in every run in which each `msg_recv` finds
a head that fits. -/
theorem received_in_order {localId : CInt} {s : DataState}
    (h : (dataMachine localId).Reach RecvFits s) : InOrder s :=
  fun i => (List.sublist_append_left _ _).trans ((inPipe_of_reach h).order i)

lemma one_lt_len : 1 < 2147483648 := by decide

/-- The ids of two nodes. -/
def nodeTwo : CInt := ⟨2, by decide⟩

def nodeThree : CInt := ⟨3, by decide⟩

/-- A message of one byte. -/
def oneByteMessage (src : CInt) (b : UInt8) : DataMessage := ⟨src, ⟨[b], one_lt_len⟩, zeros 8⟩

/-- The nodes 2 and 3 send a byte each to the node 1, where the connection of the node 3 is
accepted first. -/
def sendBoth : List MsgStep :=
  [.send (oneByteMessage nodeTwo 7), .send (oneByteMessage nodeThree 8), .deal nodeThree 25,
    .deal nodeTwo 25]

/-- A byte is asked for. -/
def recvByte (dist : CInt) : MsgStep := .recv dist ⟨1, one_lt_len⟩ (zeros 25)

/-- Both bytes are received, in the order in which the connections were accepted. -/
theorem received_in_order_both :
    ∃ s, (dataMachine CInt.one).Reach RecvFits s ∧ s.received nodeTwo = [[7]] ∧
      s.received nodeThree = [[8]] ∧ InOrder s := by
  have htest : ((((dataMachine CInt.one).restrict fun s l => RecvFits s l).run
      (sendBoth ++ [recvByte nodeThree, recvByte nodeTwo]) (dataMachine CInt.one).init).any fun s =>
        s.received nodeTwo = [[7]] ∧ s.received nodeThree = [[8]]) = true := by
    decide +kernel
  obtain ⟨s, hreach, hs⟩ :=
    Machine.exists_reach_of_restrict (fun _ _ hfits => of_decide_eq_true hfits) htest
  obtain ⟨htwo, hthree⟩ := of_decide_eq_true hs
  exact ⟨s, hreach, htwo, hthree, received_in_order hreach⟩

/-- The byte of the node 3 is received as the one of the node 2. -/
theorem other_node_received :
    ∃ s, (dataMachine CInt.one).Reach Machine.always s ∧ ¬InOrder s := by
  have htest : (((dataMachine CInt.one).run (sendBoth ++ [recvByte nodeTwo])
      (dataMachine CInt.one).init).any fun s =>
        s.received nodeTwo = [[8]] ∧ s.sent nodeTwo = [[7]]) = true := by
    decide +kernel
  obtain ⟨s, hreach, hs⟩ := Machine.exists_reach_of_run htest
  obtain ⟨hreceived, hsent⟩ := of_decide_eq_true hs
  refine ⟨s, hreach, fun horder => ?_⟩
  have hsame := horder nodeTwo
  rw [hreceived, hsent] at hsame
  revert hsame
  decide

end Epbs
