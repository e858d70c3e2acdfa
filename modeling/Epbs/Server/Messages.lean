/-
The messages between the master and the compute nodes (`libmsg.h`, `libmsg.c`,
`libjobq.c`): five header words and a payload, sent to a port of a host over a
transport.

* `Msg`: the header words `type`, `src`, `dist`, `m1`, `m2` of `libmsg.h`, and
  the payload; the sixth word, which no receiver of these messages reads, is
  left out;
* `RecvBuffer`: a receive buffer, and what receiving does to it;
* `udpSend`: a datagram to a port of a host of the list;
* `serverSingleJobSubmit`, `serverSingleJobCancel`: what the master sends.

A packet also carries the number of the job it is about.  No code reads it: it
tells the jobs apart that share a slot number one after the other.
-/
import Epbs.Server.Tables

namespace Epbs

/-- The transport of a channel. A datagram does not reach a TCP port of the same number. -/
inductive Transport where
  | udp | tcp
  deriving DecidableEq, Repr

/-- Where a message is sent: a port of a host, over a transport.  Hosts are
given by their number in the host list. -/
structure Endpoint where
  transport : Transport
  host : ℤ
  port : ℤ
  deriving DecidableEq

/-- `MSG_BUFF_SIZE`. -/
def msgBuffSize : ℕ := 2000

/-- A buffer of `MSG_BUFF_SIZE` bytes. -/
abbrev RecvBuffer := {bytes : Bytes // bytes.length = msgBuffSize}

/-- A buffer of zeros. -/
def zeroBuffer : RecvBuffer := ⟨List.replicate msgBuffSize 0, List.length_replicate⟩

/-- What is received goes over what was in the buffer, as much of it as fits. -/
def RecvBuffer.recv (buf : RecvBuffer) (msg : Bytes) : RecvBuffer where
  val := msg.take msgBuffSize ++ buf.1.drop (msg.take msgBuffSize).length
  property := by
    rw [List.length_append, List.length_drop, buf.2, List.length_take]
    omega

lemma RecvBuffer.recv_of_le (buf : RecvBuffer) {msg : Bytes} (h : msg.length ≤ msgBuffSize) :
    (buf.recv msg).1 = msg ++ buf.1.drop msg.length := by
  show msg.take msgBuffSize ++ buf.1.drop (msg.take msgBuffSize).length = _
  rw [List.take_of_length_le h]

/-- `MSG_TYPE_HOST`. -/
def msgTypeHost : ℤ := 2

/-- `MSG_TYPE_JOB_SUBMIT`. -/
def msgTypeJobSubmit : ℤ := 4

/-- `MSG_TYPE_JOB_CANCEL`. -/
def msgTypeJobCancel : ℤ := 5

/-- `MSG_TYPE_JOB_RETURN`. -/
def msgTypeJobReturn : ℤ := 6

/-- `MSG_TYPE_JOB_QUERY`. -/
def msgTypeJobQuery : ℤ := 7

/-- `UDP_CANCEL_JOB_SRV_PORT_NUMBER`. -/
def cancelJobPort : ℤ := 4016

/-- `UDP_HOST_STAT_SRV_PORT_NUMBER`. -/
def hostStatPort : ℤ := 4022

/-- `UDP_INTER_JOB_SRV_PORT_NUMBER`. -/
def interJobPort : ℤ := 4032

/-- `UDP_JOB_RELT_SRV_PORT_NUMBER`. -/
def jobReltPort : ℤ := 4036

/-- The number of the master in the host list (`server_machine_id`). -/
def serverMachineId : ℤ := 1

/-- A message: the header words and the payload. -/
structure Msg where
  type : ℤ
  src : ℤ
  dist : ℤ
  m1 : ℤ
  m2 : ℤ
  payload : Bytes
  deriving DecidableEq

/-- A message on its way, and the number of the job it is about. -/
structure Packet where
  dest : Endpoint
  msg : Msg
  job : ℕ
  deriving DecidableEq

/-- `udp_send`. -/
def udpSend (dist : ℤ) (msg : Msg) (port : ℤ) (job : ℕ) : Packet :=
  ⟨⟨.udp, dist, port⟩, msg, job⟩

/-- **`server_single_job_submit`**: the command with its NUL, to the node. -/
def serverSingleJobSubmit (localId remoteId : ℤ) (command : Bytes) (jobId : ℤ) (job : ℕ) :
    Packet :=
  udpSend remoteId
    ⟨msgTypeJobSubmit, localId, remoteId, jobId, command.length + 1, command ++ [0]⟩
    interJobPort job

/-- **`server_single_job_cancel`**: the job id, to the node. -/
def serverSingleJobCancel (localId jobId hostId : ℤ) (job : ℕ) : Packet :=
  udpSend hostId ⟨msgTypeJobCancel, localId, hostId, jobId, 0, []⟩ cancelJobPort job

section Ports

variable {localId remoteId jobId : ℤ} {command : Bytes} {job : ℕ}

@[simp] lemma serverSingleJobSubmit_port :
    (serverSingleJobSubmit localId remoteId command jobId job).dest.port = interJobPort := rfl
@[simp] lemma serverSingleJobSubmit_host :
    (serverSingleJobSubmit localId remoteId command jobId job).dest.host = remoteId := rfl
@[simp] lemma serverSingleJobSubmit_job :
    (serverSingleJobSubmit localId remoteId command jobId job).job = job := rfl
@[simp] lemma serverSingleJobCancel_port :
    (serverSingleJobCancel localId jobId remoteId job).dest.port = cancelJobPort := rfl
@[simp] lemma serverSingleJobCancel_host :
    (serverSingleJobCancel localId jobId remoteId job).dest.host = remoteId := rfl
@[simp] lemma serverSingleJobCancel_job :
    (serverSingleJobCancel localId jobId remoteId job).job = job := rfl

end Ports

end Epbs
