import RcCarControl.Interface.Messages

/-!
# The sender of video frames

`rccVideoStreamer::sendMulticastData` of `sw/daemon/rcc_video_streamer.cpp` behind the encoding: the datagrams it sends
for an encoded buffer on an existing stream.  The buffers are shorter than 2³¹ bytes.
-/

namespace RcCarControl.Video

open Interface LittleEndian Memory

/-- The loop of `sendMulticastData`: the datagrams that were sent and the returned value.  `sendto` gives the return value
for a datagram; on an error the loop ends, a wrong number is only reported. -/
def sendLoop (sendto : List Byte → Int) (encodedBuffer : List Byte) (videoFrame : MsgVframe) (msgCounter : Nat)
    (cntMsg : Byte) : List (List Byte) × Int :=
  if msgCounter < videoFrame.header.size.toNat then
    let sendBytes := min (videoFrame.header.size.toNat - msgCounter + msgVframeHeaderSize) msgVframeMaxPacketSize
    let sizeFrame := sendBytes - msgVframeHeaderSize
    let sent := { videoFrame with
      sizeFrame := BitVec.ofNat 32 sizeFrame
      idxFrame := BitVec.ofNat 32 msgCounter
      curMsg := cntMsg
      frame := store videoFrame.frame 0 ((encodedBuffer.drop msgCounter).take sizeFrame) }
    let datagram := sent.toBytes sendBytes
    if sendto datagram < 0 then ([], sendto datagram)
    else
      let r := sendLoop sendto encodedBuffer sent (msgCounter + sizeFrame) (cntMsg + 1)
      (datagram :: r.1, r.2)
  else ([], msgCounter)
termination_by videoFrame.header.size.toNat - msgCounter
decreasing_by
  have h28 : msgVframeHeaderSize = 28 := rfl
  have hmax : msgVframeMaxPacketSize = 65496 := rfl
  omega

/-- What the datagrams of a frame share.  The number of messages is counted in packets, their headers included. -/
def announce (frameCnt : Byte) (videoFrame : MsgVframe) (encodedBuffer : List Byte) : MsgVframe :=
  let size : U32 := BitVec.ofNat 32 encodedBuffer.length
  { videoFrame with
    header := { videoFrame.header with magic := rcciMsgInitMagic, size := size }
    cntFrame := frameCnt
    allMsgs := BitVec.ofNat 8 ((size.toNat + msgVframeMaxPacketSize) / msgVframeMaxPacketSize) }

/-- `sendMulticastData` with the buffer that `imencode` made, on the uninitialized `videoFrame`; `maxFrame` is
`rcci_msg_vframe_max_frame`.  The frame counter goes up when the buffer is not too large. -/
def sendMulticastData (maxFrame : Nat) (sendto : List Byte → Int) (frameCnt : Byte) (videoFrame : MsgVframe)
    (encodedBuffer : List Byte) : (List (List Byte) × Int) × Byte :=
  if maxFrame < encodedBuffer.length then (([], -1), frameCnt)
  else (sendLoop sendto encodedBuffer (announce frameCnt videoFrame encodedBuffer) 0 0, frameCnt + 1)

end RcCarControl.Video
