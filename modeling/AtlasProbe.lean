import AtlasProbe.Atlasinit.SessionId
import AtlasProbe.Eooqd.Barrier
import AtlasProbe.Eperd.Reload
import AtlasProbe.Eperd.Schedule
import AtlasProbe.Evtdig.JsonOutput
import AtlasProbe.Evtdig.QueryRing
import AtlasProbe.Evtdig.Results
import AtlasProbe.Evtdig.Tcp
import AtlasProbe.Http2.HuffmanLiteral
import AtlasProbe.Httppost.Delivery
import AtlasProbe.Ntp.JsonResult
import AtlasProbe.Ntp.Pacing
import AtlasProbe.Perd.Schedule
import AtlasProbe.Ping.Accounting
import AtlasProbe.Spool.Condmv
import AtlasProbe.Spool.CronUpdate
import AtlasProbe.Spool.Oneoff
import AtlasProbe.Telnetd.LineEnds
import AtlasProbe.Telnetd.Replies
import AtlasProbe.Traceroute.Attribution
import AtlasProbe.Traceroute.Hops
import AtlasProbe.Traceroute.JsonResult
import AtlasProbe.Evtdig.Records
import AtlasProbe.Evtdig.RrLen
import AtlasProbe.Http2.Integers
import AtlasProbe.Evtdig.NameFormat
import AtlasProbe.Evtdig.TxtStrings
import AtlasProbe.Telnetd.Fifo
import AtlasProbe.Eperd.Numbers
import AtlasProbe.Httppost.Connect
import AtlasProbe.Rptra6.Resolv
import AtlasProbe.Httppost.Chunked
import AtlasProbe.Rptra6.LastOption
import AtlasProbe.Httppost.ServerTime
import AtlasProbe.Http2.Sent
import AtlasProbe.Http2.HeaderBlock
import AtlasProbe.Http2.Response
