import SessionEngine.Chat.Handler
import SessionEngine.Stress.Handler
import SessionEngine.Transfer.Endpoint

/-!
# The combined server

One session that speaks all protocols. Each frame goes, by its id, to the
protocol that it belongs to; the others do not see it.
-/

namespace SessionEngine

inductive Protocol where
  | chat
  | stress
  | files (kind : Transfer.Kind)
deriving DecidableEq

namespace Protocol

def ofId? (id : UInt16) : Option Protocol :=
  match Transfer.Kind.ofId? id with
  | some kind => some (files kind)
  | none =>
      if id = Chat.messageId ∨ id = Chat.replyId then some chat
      else if id = Stress.startId ∨ id = Stress.dataId ∨ id = Stress.resultId then some stress
      else none

end Protocol

/-- What a server session keeps for each protocol. -/
structure Server where
  files : Transfer.Endpoint
  stress : Stress.Receiver

namespace Server

def packet (frame : Bytes) (s : Server) : Server × List Action :=
  match (Header.parse? frame).bind fun header => Protocol.ofId? header.id with
  | some (.files kind) =>
      let (files, actions) := s.files.packetOf .unfailing kind frame
      ({ s with files }, actions)
  | some .chat => (s, Chat.echo frame)
  | some .stress =>
      let (stress, actions) := s.stress.packet frame
      ({ s with stress }, actions)
  | none => (s, [])

def handler : PacketHandler Server :=
  { PacketHandler.silent with
    packet := packet
    disconnected := fun s => { s with files := s.files.onDisconnected } }

end Server

end SessionEngine
