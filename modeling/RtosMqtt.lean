import RtosMqtt.Handshake.Delivery
import RtosMqtt.State.Session
import RtosMqtt.Client.Scripted
import RtosMqtt.Client.Once
import RtosMqtt.Client.Consumption
import RtosMqtt.Client.Requests
import RtosMqtt.Wire.Layout
import RtosMqtt.State.Incoming
import RtosMqtt.Client.Subscribe
import RtosMqtt.Client.Negotiated
import RtosMqtt.Client.Reachable
import RtosMqtt.Client.Resumed
import RtosMqtt.Client.Answers
import RtosMqtt.Client.Limit
import RtosMqtt.Client.Connected
import RtosMqtt.Client.Header
import RtosMqtt.Wire.Validated
import RtosMqtt.Wire.Publication
import RtosMqtt.Client.Redelivery
import RtosMqtt.Client.Spent
import RtosMqtt.Wire.Serializers
import RtosMqtt.Client.Unsent
import RtosMqtt.Client.Gathers
import RtosMqtt.Client.Vectors
import RtosMqtt.Client.Senders
import RtosMqtt.Wire.Grammar
import RtosMqtt.Client.Seam
import RtosMqtt.Client.Announced
import RtosMqtt.Wire.Acknowledged
import RtosMqtt.Wire.Extent
import RtosMqtt.Wire.Matching
import RtosMqtt.Client.Grouped
import RtosMqtt.Client.Ending
import RtosMqtt.Client.KeepAlive
import RtosMqtt.Client.Framed
import RtosMqtt.Client.Shown
import RtosMqtt.Client.Resumption
import RtosMqtt.Client.Quota
import RtosMqtt.Client.Conservation
import RtosMqtt.Client.Carried
import RtosMqtt.Wire.Agreement
